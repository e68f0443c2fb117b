import NoteStencil.Merge
import NoteStencil.Settings
import NoteStencil.Template.Lookup

/-! A template put into an open buffer, or made into a document of its own. Each operation has a context of its own,
so nothing that was answered or computed for one document reaches another. -/

namespace NoteStencil

/-- The files, the state of the prompt, and the warnings given so far. -/
structure World (σ : Type) where
  files : FileSystem
  prompt : σ
  warnings : List String := []

namespace World

def warn (w : World σ) (texts : List String) : World σ := { w with warnings := w.warnings ++ texts }

/-- With the prompt as it is left by an expansion, and the warnings of producers run by it. -/
def expanded (w : World σ) (s : σ) (before after : Context) : World σ :=
  { w with prompt := s, warnings := w.warnings ++ after.warningsSince before.runs.length }

end World

structure Engine where
  directory : Option Path
  settings : Settings
  now : Instant

namespace Engine

def contextFor (e : Engine) (n : Note) : Context := Context.ofNote n e.settings e.now

def resolve (e : Engine) (reference : String) (w : World σ) : Except Failure Path × World σ :=
  (Template.resolve w.files e.directory reference,
    w.warn (Template.resolveWarnings w.files e.directory reference))

/-- The lines of a file as a source; what cannot be opened is a source that only refuses. -/
def sourceAt (fs : FileSystem) (p : Path) : LineCursor :=
  match fs.read p with
  | .ok octets => ⟨FileSystem.octetLines octets, p, 0⟩
  | .error fault => ⟨[.error fault], p, 0⟩

/-! ### Insertion -/

/-- Where a template's body now stands in the buffer, and whether its block went into the note. -/
structure Insertion where
  merged : Bool
  start : Nat
  stop : Nat
  deriving DecidableEq, Repr

/-- A note, the buffer it describes, and the rest of the world. -/
structure Desk (σ : Type) where
  target : Note
  buffer : Buffer
  world : World σ

/-- Lines at the top of the buffer that hold the note's present block. -/
def blockLength (n : Note) (b : Buffer) : Nat :=
  if n.hasFrontmatter then
    match n.closingLine with
    | some last => min (last + 1) b.count
    | none => 0
  else 0

/-- A point behind the old block moves with the text; one inside it lands behind the new block. -/
def shiftPoint (point old new : Nat) : Nat := if point < old then new else point - old + new

/-- The block that was merged, in place of the one that was there. -/
def placeBlock (target : Note) (b : Buffer) (block : List String) : Note × Buffer :=
  ({ target with hasFrontmatter := true, closingLine := some (block.length - 1) },
    b.replace 0 (blockLength target b) block)

/-- Each line of a body expanded, and cut where the values brought line breaks. -/
def bodyLines (expandedLines : List String) : List String := expandedLines.flatMap splitLines

def placeBody (b : Buffer) (point : Nat) (body : List String) : Buffer :=
  (b.replace point point body).setCursor (max (point + body.length - 1) point)

/-- Expands the body and puts it at the point. -/
def insertBody (p : Prompter σ) (body : List String) (c : Context) (merged : Bool) (point : Nat) (d : Desk σ) :
    Insertion × Desk σ :=
  match expandLines p body c d.world.prompt with
  | (lines, c', s) =>
    let body := bodyLines lines
    (⟨merged, point, point + body.length⟩,
      { d with buffer := placeBody d.buffer point body, world := d.world.expanded s c c' })

/-- A template whose lines are all read, put at a point that is no further than the end. -/
def insertSplit (e : Engine) (p : Prompter σ) (path : Path) (template : Split) (point : Nat) (d : Desk σ) :
    Except Failure Insertion × Desk σ :=
  let c := e.contextFor d.target
  if template.hasBlock then
    let m := mergeBlock p template.block path d.target c d.world.prompt
    let world := d.world.expanded m.state c m.context
    match m.lines with
    | .error failure =>
      (.error failure, { d with target := m.target, world := world.warn failure.warning.toList })
    | .ok block =>
      let point := shiftPoint point (blockLength m.target d.buffer) block.length
      let (target, buffer) := placeBlock m.target d.buffer block
      let (insertion, d') := insertBody p template.body m.context true point { target, buffer, world }
      (.ok insertion, d')
  else
    let (insertion, d') := insertBody p template.body c false point d
    (.ok insertion, d')

def insert (e : Engine) (p : Prompter σ) (reference : String) (at_ : Nat) (d : Desk σ) :
    Except Failure Insertion × Desk σ :=
  match e.resolve reference d.world with
  | (.error failure, world) => (.error failure, { d with world })
  | (.ok path, world) =>
    let d := { d with world }
    match (sourceAt world.files path).split with
    | .error failure => (.error failure, d)
    | .ok template => e.insertSplit p path template (min at_ d.buffer.count) d

/-! ### Cloning -/

/-- Lines up to the first that cannot be read, and why it cannot. -/
def readable : LineSource → List String × Option Fault
  | [] => ([], none)
  | .error fault :: _ => ([], some fault)
  | .ok line :: rest => (line :: (readable rest).1, (readable rest).2)

/-- The identity of a source given to a note: its names and tags, and its title where the note has none. -/
def inherit (n source : Note) : Note :=
  ({ n with id := source.id.or n.id, title := n.title.or source.title }.addAliases source.aliases).addTags
    source.tags

def ownTemplate (template : Path) : Fault :=
  ⟨.other, "destination is the template " ++ template.text ++ " itself"⟩

/-- Expands the lines of the template into the destination, which has just been emptied. -/
def fillFrom (e : Engine) (p : Prompter σ) (template destination : Path) (source : Note) (w : World σ) :
    Except Failure Unit × World σ :=
  let (lines, fault) := readable (sourceAt w.files template).rest
  let c := e.contextFor source
  match expandLines p lines c w.prompt with
  | (out, c', s) =>
    let w := w.expanded s c c'
    let (stored, files) := w.files.storeText destination (closeLines out)
    match stored, fault with
    | .error failure, _ => (.error failure, { w with files })
    | .ok (), some fault => (.error (.unreadable template fault), { w with files })
    | .ok (), none => (.ok (), { w with files })

/-- Makes the destination, empty at first, and fills it. What was written before a failure stays. -/
def copyTo (e : Engine) (p : Prompter σ) (template destination : Path) (source : Note) (w : World σ) :
    Except Failure Unit × World σ :=
  match w.files.ensureParent destination with
  | (.error failure, files) => (.error failure, { w with files })
  | (.ok (), files) =>
    match files.storeText destination "" with
    | (.error failure, files) => (.error failure, { w with files })
    | (.ok (), files) => e.fillFrom p template destination source { w with files }

/-- The new document is read back and takes over the identity of the source, which is not written. -/
def clone (e : Engine) (p : Prompter σ) (reference : String) (destination : Path) (source : Note)
    (w : World σ) : Except Failure Note × World σ :=
  match e.resolve reference w with
  | (.error failure, w) => (.error failure, w)
  | (.ok template, w) =>
    if w.files.sameFile template destination then
      (.error (.unwritable destination (ownTemplate template)), w)
    else match e.copyTo p template destination source w with
      | (.error failure, w) => (.error failure, w)
      | (.ok (), w) => ((Note.ofFile w.files destination).map (inherit · source), w)

end Engine
end NoteStencil
