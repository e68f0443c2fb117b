import NoteStencil.Command.LogFilter
import NoteStencil.Command.Run
import NoteStencil.Disk
import Std.Time.DateTime.Timestamp

/-! The program: words of the command line in, files and text out. A run is a pure function of what it finds, so
where it asks a question it is made again with one more line typed. -/

namespace NoteStencil

def helpText : String :=
  "Markdown templates with frontmatter merging.\n\nUsage: frontplate [OPTIONS] <COMMAND>\n\nCommands:\n" ++
  "  new      Create a note from a template\n  insert   Insert a template into a note\n" ++
  "  list     List templates in the templates directory\n" ++
  "  resolve  Show which file a template name resolves to\n" ++
  "  help     Print this message or the help of the given subcommand(s)\n\nOptions:\n" ++
  "  -v, --verbose        Enable debug logging\n  -q, --quiet          Suppress all logging\n" ++
  "  -c, --config <PATH>  Path to the configuration file [env: FRONTPLATE_CONFIG=]\n" ++
  "      --vault <DIR>    Vault root directory\n  -h, --help           Print help\n" ++
  "  -V, --version        Print version\n"

def Rejection.text : Rejection → String
  | help | helpForNothing => helpText
  | version => versionText
  | missingCommand => "error: 'frontplate' requires a subcommand but one was not provided\n"
  | unknownCommand => "error: unrecognized subcommand\n"
  | unknownArgument => "error: unexpected argument found\n"
  | missingArgument => "error: the following required arguments were not provided\n"
  | emptyValue => "error: a value is required but none was supplied\n"
  | invalidValue => "error: invalid value\n"
  | needlessValue => "error: unexpected value found\n"
  | conflict => "error: an argument cannot be used with another\n"

def loadEnvironment (names : List String) : IO Environment := do
  let mut values : Table String String := []
  for name in names do
    if let some value ← IO.getEnv name then values := values.put name value
  return { values }

def now : IO Instant := do
  let nanos := (← Std.Time.Timestamp.now).toNanosecondsSinceUnixEpoch.toInt
  return { seconds := nanos / 1000000000, nanos := (nanos % 1000000000).toNat }

/-- Paths that a command reads or writes, apart from what is below the templates directory. -/
def reachedPaths (p : Command.Workplace) : Command → List Path
  | .new template note _ _ | .insert template note _ =>
    p.notePath note :: (p.templatesDir.toList.flatMap (Template.candidates · template))
  | .resolve template => p.templatesDir.toList.flatMap (Template.candidates · template)
  | .list _ => []

/-- The disk as far as the invocation can reach it. -/
def loadDisk (i : Invocation) (workdir : Path) : IO (FileSystem × Environment × Instant) := do
  let time ← now
  let base : List String := ["HOME", Config.fileVariable, LogFilter.variableName]
  let e ← loadEnvironment base
  let mut fs ← Disk.addPath { workdir := Disk.placeOf workdir.text } workdir
  if let some file := i.config.or (Config.defaultPath e).toOption then fs ← Disk.addPath fs file
  match Command.Workplace.load i e time workdir fs with
  | .error _ => return (fs, e, time)
  | .ok p =>
    let e ← loadEnvironment (base ++ (p.config.templatesDir.toList.flatMap Environment.names))
    let p := { p with environment := e }
    for path in reachedPaths p i.command do fs ← Disk.addPath fs path
    if let some directory := p.templatesDir then fs := (← Disk.addBelow fs [] directory).1
    return (fs, e, time)

/-- Runs until no question is left without a line or the input ends, printing each question as it comes up. -/
partial def converse (run : Option (List Char) → Except Command.Trouble Unit × Command.Terminal)
    (typed : Option (List Char)) (printed : Nat) : IO (Except Command.Trouble Unit × Command.Terminal × Nat) := do
  let (result, w) := run typed
  match typed, w.prompt.starved with
  | some chars, some err =>
    let shown := err.toList.length
    IO.eprint (String.ofList (err.toList.drop printed))
    let line ← (← IO.getStdin).getLine
    if line.isEmpty then return (result, w, shown) else converse run (some (chars ++ line.toList)) shown
  | _, _ => return (result, w, printed)

def perform (i : Invocation) : IO UInt32 := do
  let workdir : Path := ⟨(← IO.currentDir).toString⟩
  let (files, e, time) ← loadDisk i workdir
  let typed := if ← (← IO.getStdin).isTty then some [] else none
  let color := (← (← IO.getStdout).isTty) && (← IO.getEnv "NO_COLOR").isNone
  let run (typed : Option (List Char)) := i.run e time workdir { files, prompt := { typed, color } }
  let (result, w, printed) ← converse run typed 0
  Disk.update files w.files
  if (LogFilter.ofInvocation i e).isSome then
    for text in w.warnings.eraseDups do IO.eprintln (" WARN " ++ text)
  IO.print w.prompt.out
  IO.eprint (String.ofList (w.prompt.err.toList.drop printed))
  match result with
  | .ok () => return 0
  | .error trouble =>
    IO.eprint (trouble.report.shown color)
    return 1

end NoteStencil

open NoteStencil in
def main (args : List String) : IO UInt32 := do
  match Arguments.parse (← IO.getEnv Config.fileVariable) args with
  | .ok i => perform i
  | .error rejection =>
    if rejection.exitCode = 0 then IO.print rejection.text else IO.eprint rejection.text
    return rejection.exitCode.toUInt32
