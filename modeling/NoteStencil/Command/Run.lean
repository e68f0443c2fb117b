import NoteStencil.Command.Arguments
import NoteStencil.Config
import NoteStencil.Console
import NoteStencil.Template.Engine

/-! What the commands do. All of them work on the files and the terminal of a world; a command that fails has said why,
and what it did before stays. -/

namespace NoteStencil
namespace Command

/-- Why a command stopped. -/
inductive Trouble
  | failed (failure : Failure)
  | inTheWay (destination : Path)
  deriving DecidableEq, Repr

namespace Trouble

def report : Trouble → Report
  | failed failure => Report.ofFailure failure
  | inTheWay destination =>
    Report.ofChain (destination.text ++ " already exists. Use --force to overwrite it.") []

end Trouble

/-- The configuration, and the vault that it is anchored in. -/
structure Workplace where
  config : Config
  root : Path
  environment : Environment
  now : Instant

namespace Workplace

/-- Without a vault the working directory is the vault. -/
def load (i : Invocation) (e : Environment) (now : Instant) (workdir : Path) (fs : FileSystem) :
    Except Failure Workplace :=
  let root := i.vault.getD workdir
  (Config.loadOptional fs e i.config).map fun c =>
    { config := c.withVault root, root, environment := e, now }

def templatesDir (p : Workplace) : Option Path := p.config.templatesPath p.environment

def engine (p : Workplace) : Engine := { directory := p.templatesDir, settings := p.config.settings, now := p.now }

/-- Warnings of looking up the templates directory. -/
def warnings (p : Workplace) : List String := (p.config.templatesWarning p.environment).toList

def notePath (p : Workplace) (note : Path) : Path := p.root.join note

end Workplace

abbrev Terminal := World Console

def say (text : String) (w : Terminal) : Terminal := { w with prompt := w.prompt.print (text ++ "\n") }

/-- Words that stand out where colours are on. -/
def marked (w : Terminal) (style : Style) (text : String) : String := style.paint w.prompt.color text

/-! ### A new note -/

/-- The note whose fields the template's placeholders are filled from. -/
def sourceNote (identity : Identity) (destination : Path) : Note :=
  let n : Note :=
    { id := identity.id.or destination.fileStem, title := identity.title, path := some destination }
  (n.addAliases identity.aliases).addTags identity.tags

/-- Puts the title above the text, unless that has a heading. -/
def withHeading (title : Option String) (n : Note) : Note :=
  match title with
  | none => n
  | some title =>
    if n.body.any Note.isHeading then n else { n with body := (Note.headingLead ++ title) :: n.body }

def runNew (p : Workplace) (template : String) (note : Path) (identity : Identity) (force : Bool) (w : Terminal) :
    Except Trouble Unit × Terminal :=
  let destination := p.notePath note
  if w.files.exists? destination ∧ !force then (.error (.inTheWay destination), w)
  else
    match p.engine.clone Console.prompter template destination (sourceNote identity destination)
        (w.warn p.warnings) with
    | (.error failure, w) => (.error (.failed failure), w)
    | (.ok n, w) =>
      let n := withHeading identity.title n
      match n.save w.files destination with
      | (.error failure, files) =>
        (.error (.failed failure), { w with files }.warn failure.warning.toList)
      | (.ok (), files) =>
        (.ok (), say (marked w .boldGreen "Created" ++ " " ++ destination.text) { w with files })

/-! ### An insertion -/

/-- The point before a line that is counted from one, the end when no line is given. -/
def insertionPoint (b : Buffer) (line : Option Nat) : Nat := line.elim b.count (· - 1)

def insertedText (w : Terminal) (path : Path) (i : Engine.Insertion) : String :=
  marked w .boldGreen "Inserted" ++ " " ++ toString (i.stop - i.start) ++ " lines into " ++ path.text ++
    " at line " ++ toString (i.start + 1) ++ if i.merged then " (frontmatter merged)" else ""

/-- Stores a buffer at a path, whose directory is made first. -/
def storeBuffer (b : Buffer) (path : Path) (fs : FileSystem) : Except Failure Unit × FileSystem :=
  match path.parent with
  | none => b.save fs path
  | some directory =>
    match fs.ensureDirectory directory with
    | (.error failure, fs') => (.error failure, fs')
    | (.ok (), fs') => b.save fs' path

/-- The note and its buffer, as they are before an insertion. -/
def openNote (fs : FileSystem) (path : Path) : Except Failure (Buffer × Note) :=
  (Buffer.load fs path).bind fun b => (Note.ofBuffer b (some path)).map (b, ·)

def runInsert (p : Workplace) (template : String) (note : Path) (line : Option Nat) (w : Terminal) :
    Except Trouble Unit × Terminal :=
  let path := p.notePath note
  let w := w.warn p.warnings
  match openNote w.files path with
  | .error failure => (.error (.failed failure), w)
  | .ok (buffer, target) =>
    match p.engine.insert Console.prompter template (insertionPoint buffer line)
        { target, buffer, world := w } with
    | (.error failure, d) => (.error (.failed failure), d.world)
    | (.ok insertion, d) =>
      match storeBuffer d.buffer path d.world.files with
      | (.error failure, files) => (.error (.failed failure), { d.world with files })
      | (.ok (), files) => (.ok (), say (insertedText d.world path insertion) { d.world with files })

/-! ### Looking around -/

def listed (paths : Bool) (directory : Path) (template : Path) : String :=
  if paths then (directory.join template).text else template.text

def runList (p : Workplace) (paths : Bool) (w : Terminal) : Except Trouble Unit × Terminal :=
  let w := w.warn p.warnings
  match p.templatesDir with
  | none => (.error (.failed .templatesDirUndefined), w)
  | some directory =>
    let w := w.warn (w.files.listingWarnings directory)
    match Template.list w.files directory with
    | [] => (.ok (), say (marked w .yellow ("No templates found in " ++ directory.text)) w)
    | templates => (.ok (), templates.foldl (fun w t => say (listed paths directory t) w) w)

def runResolve (p : Workplace) (template : String) (w : Terminal) : Except Trouble Unit × Terminal :=
  match p.engine.resolve template (w.warn p.warnings) with
  | (.error failure, w) => (.error (.failed failure), w)
  | (.ok path, w) => (.ok (), say path.text w)

/-! ### Any command -/

def run (p : Workplace) : Command → Terminal → Except Trouble Unit × Terminal
  | new template destination identity force => runNew p template destination identity force
  | insert template note line => runInsert p template note line
  | list paths => runList p paths
  | resolve template => runResolve p template

end Command

/-- Loads the configuration and runs the command. -/
def Invocation.run (i : Invocation) (e : Environment) (now : Instant) (workdir : Path)
    (w : Command.Terminal) : Except Command.Trouble Unit × Command.Terminal :=
  match Command.Workplace.load i e now workdir w.files with
  | .error failure => (.error (.failed failure), w)
  | .ok p => Command.run p i.command w

end NoteStencil
