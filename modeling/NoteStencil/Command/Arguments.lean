import NoteStencil.Environment
import NoteStencil.Path
import NoteStencil.Table
import NoteStencil.Text.Numeral

/-! The words of a command line. Options that concern every command may stand before or behind the command's name;
each level is read on its own, the command's first. A value is looked at only when the next option or word is
taken in, so of two faults the later one can come first. -/

namespace NoteStencil

/-- Options of a new note, as they were given. -/
structure Identity where
  title : Option String := none
  id : Option String := none
  aliases : List String := []
  tags : List String := []
  deriving DecidableEq, Repr

inductive Command
  | new (template : String) (destination : Path) (identity : Identity) (force : Bool)
  | insert (template : String) (note : Path) (line : Option Nat)
  | list (paths : Bool)
  | resolve (template : String)
  deriving DecidableEq, Repr

/-- A command, and what was said about how to run it. -/
structure Invocation where
  command : Command
  verbose : Bool := false
  quiet : Bool := false
  config : Option Path := none
  vault : Option Path := none
  deriving DecidableEq, Repr

/-- Why words lead to no command. -/
inductive Rejection
  | help
  | version
  | helpForNothing
  | missingCommand
  | unknownCommand
  | unknownArgument
  | missingArgument
  | emptyValue
  | invalidValue
  | needlessValue
  | conflict
  deriving DecidableEq, Repr

/-- Only what was asked for is no mistake. -/
def Rejection.exitCode : Rejection → Nat
  | help | version => 0
  | _ => 2

def programName : String := "frontplate"

def versionText : String := programName ++ " 0.1.0\n"

namespace Arguments

/-! ### Words that are known -/

inductive Verb
  | new
  | insert
  | list
  | resolve
  deriving DecidableEq, Repr

/-- All that can be given, by options or by place. -/
inductive Field
  | verbose
  | quiet
  | config
  | vault
  | title
  | id
  | alternate
  | tag
  | force
  | line
  | paths
  | template
  | destination
  | note
  deriving DecidableEq, Repr

inductive Meaning
  | help
  | version
  | switch (field : Field)
  | value (field : Field)
  deriving DecidableEq, Repr

structure Choice where
  long : String
  short : Option Char := none
  meaning : Meaning
  deriving DecidableEq, Repr

def sharedChoices : List Choice :=
  [{ long := "verbose", short := some 'v', meaning := .switch .verbose },
   { long := "quiet", short := some 'q', meaning := .switch .quiet },
   { long := "config", short := some 'c', meaning := .value .config },
   { long := "vault", meaning := .value .vault },
   { long := "help", short := some 'h', meaning := .help }]

def ownChoices : Option Verb → List Choice
  | none => [{ long := "version", short := some 'V', meaning := .version }]
  | some .new =>
    [{ long := "title", meaning := .value .title }, { long := "id", meaning := .value .id },
     { long := "alias", meaning := .value .alternate }, { long := "tag", meaning := .value .tag },
     { long := "force", meaning := .switch .force }]
  | some .insert => [{ long := "line", short := some 'l', meaning := .value .line }]
  | some .list => [{ long := "paths", meaning := .switch .paths }]
  | some .resolve => []

def choices (verb : Option Verb) : List Choice := ownChoices verb ++ sharedChoices

/-- What the words that are no options stand for, all of which are needed. -/
def places : Option Verb → List Field
  | none | some .list => []
  | some .new => [.template, .destination]
  | some .insert => [.template, .note]
  | some .resolve => [.template]

def Verb.ofWord? : String → Option Verb
  | "new" => some .new
  | "insert" => some .insert
  | "list" => some .list
  | "resolve" => some .resolve
  | _ => none

def helpWord : String := "help"

def isCommandWord (word : String) : Bool := word == helpWord || (Verb.ofWord? word).isSome

/-- Help is given on commands only, and none of them has commands of its own. -/
def helpOn : List String → Rejection
  | [] => .help
  | [word] => if isCommandWord word then .help else .unknownCommand
  | _ => .unknownCommand

/-! ### Values -/

/-- Largest number of a line that can be given. -/
def lineLimit : Nat := Nat.pow 2 64 - 1

def lineNumber? (text : String) : Option Nat :=
  let digits := match text.toList with
    | '+' :: rest => rest
    | cs => cs
  (natural? 10 digits).filter (· ≤ lineLimit)

def Field.isPath : Field → Bool
  | .config | .vault | .destination | .note => true
  | _ => false

def Field.isRepeatable : Field → Bool
  | .alternate | .tag => true
  | _ => false

def checkValue (field : Field) (text : String) : Except Rejection Unit :=
  if field.isPath ∧ text = "" then .error .emptyValue
  else if field = .line ∧ lineNumber? text = none then .error .invalidValue
  else .ok ()

/-! ### One level -/

/-- The field that was named last, before its value is looked at. -/
inductive Pending
  | nothing
  | missing (field : Field)
  | held (field : Field) (text : String)
  deriving DecidableEq, Repr

structure Level where
  given : Table Field (List String) := []
  pending : Pending := .nothing
  /-- How many words have taken a place. -/
  placed : Nat := 0
  /-- Whether all further words are meant as they are. -/
  literal : Bool := false
  deriving Repr

namespace Level

def record (l : Level) (field : Field) (text : String) : Except Rejection Level :=
  if l.given.has field ∧ !field.isRepeatable then .error .conflict
  else (checkValue field text).map fun () =>
    { l with given := l.given.put field ((l.given.find? field).getD [] ++ [text]) }

/-- Looks at the value that is pending. -/
def settle (l : Level) : Except Rejection Level :=
  match l.pending with
  | .nothing => .ok l
  | .missing _ => .error .emptyValue
  | .held field text => record { l with pending := .nothing } field text

def switchOn (l : Level) (field : Field) : Except Rejection Level :=
  if l.given.has field then .error .conflict else .ok { l with given := l.given.put field [] }

/-- Takes in an option with the value that is attached to it, if one is. -/
def take (l : Level) (meaning : Meaning) (attached : Option String) : Except Rejection Level :=
  match meaning, attached with
  | .value field, some text => l.settle.bind fun l => l.record field text
  | .value field, none => l.settle.map fun l => { l with pending := .missing field }
  | _, some _ => .error .needlessValue
  | .switch field, none => l.settle.bind fun l => l.switchOn field
  | .help, none => l.settle.bind fun _ => .error .help
  | .version, none => l.settle.bind fun _ => .error .version

/-- An option by its name, up to an equals sign that attaches a value. -/
def takeLong (verb : Option Verb) (l : Level) (chars : List Char) : Except Rejection Level :=
  let name := chars.takeWhile (· ≠ '=')
  let attached := match chars.drop name.length with
    | _ :: text => some (String.ofList text)
    | [] => none
  match (choices verb).find? fun o => o.long == String.ofList name with
  | some o => l.take o.meaning attached
  | none => .error .unknownArgument

/-- What is attached to an option of one letter. -/
def attachedTo : List Char → Option String
  | [] => none
  | '=' :: text => some (String.ofList text)
  | text => some (String.ofList text)

/-- Options of one letter behind one hyphen; one that takes a value takes all that follows. -/
def takeShort (verb : Option Verb) : Level → List Char → Except Rejection Level
  | l, [] => .ok l
  | l, c :: rest =>
    match (choices verb).find? fun o => o.short == some c with
    | none => .error .unknownArgument
    | some o =>
      match o.meaning with
      | .value field => l.take (.value field) (attachedTo rest)
      | meaning =>
        match l.take meaning none with
        | .error r => .error r
        | .ok l => takeShort verb l rest

/-- A word that is no option; where no command was named it should have named one. -/
def place (verb : Option Verb) (l : Level) (word : String) : Except Rejection Level :=
  match (places verb)[l.placed]? with
  | some field => l.settle.map fun l => { l with pending := .held field word, placed := l.placed + 1 }
  | none =>
    match verb with
    | some _ => .error .unknownArgument
    | none => .error (if l.literal ∧ isCommandWord word then .unknownArgument else .unknownCommand)

def takeWord (verb : Option Verb) (l : Level) (word : String) : Except Rejection Level :=
  match word.toList with
  | '-' :: '-' :: name => l.takeLong verb name
  | '-' :: c :: rest => l.takeShort verb (c :: rest)
  | _ =>
    match l.pending with
    | .missing field => .ok { l with pending := .held field word }
    | _ => l.place verb word

/-- Whether a word that names a command does name it here. -/
def awaitsCommand (verb : Option Verb) (l : Level) : Bool :=
  match verb, l.pending with
  | some _, _ | _, .missing _ => false
  | none, _ => true

end Level

/-- Reads the words of a level up to the name of a command, which comes back with the words behind it. -/
def readLevel (verb : Option Verb) :
    Level → List String → Except Rejection (Level × Option (Verb × List String))
  | l, [] => .ok (l, none)
  | l, word :: rest =>
    if l.literal then
      match l.place verb word with
      | .error r => .error r
      | .ok l => readLevel verb l rest
    else if l.awaitsCommand verb ∧ word = helpWord then .error (helpOn rest)
    else
      match if l.awaitsCommand verb then Verb.ofWord? word else none with
      | some command => .ok (l, some (command, rest))
      | none =>
        if word = "--" then readLevel verb { l with literal := true } rest
        else match l.takeWord verb word with
          | .error r => .error r
          | .ok l => readLevel verb l rest

/-! ### Both levels -/

/-- Looks at the last value, and at what stands in for a configuration that is not given. -/
def close (l : Level) (standIn : Option String) : Except Rejection Level :=
  l.settle.bind fun l =>
    match standIn with
    | some text => if l.given.has .config then .ok l else (checkValue .config text).map fun () => l
    | none => .ok l

/-- A command is not to be loud and quiet at once. -/
def checkLoudness (l : Level) : Except Rejection Unit :=
  if l.given.has .verbose ∧ l.given.has .quiet then .error .conflict else .ok ()

def checkPlaces (verb : Verb) (l : Level) : Except Rejection Unit :=
  if l.placed < (places (some verb)).length then .error .missingArgument else .ok ()

def textOf? (l : Level) (field : Field) : Option String := (l.given.find? field).bind (·.head?)

def textsOf (l : Level) (field : Field) : List String := (l.given.find? field).getD []

def pathOf (l : Level) (field : Field) : Path := ⟨(textOf? l field).getD ""⟩

def commandOf (verb : Verb) (l : Level) : Command :=
  let template := (textOf? l .template).getD ""
  match verb with
  | .new => .new template (pathOf l .destination)
      { title := textOf? l .title, id := textOf? l .id, aliases := textsOf l .alternate, tags := textsOf l .tag }
      (l.given.has .force)
  | .insert => .insert template (pathOf l .note) ((textOf? l .line).bind lineNumber?)
  | .list => .list (l.given.has .paths)
  | .resolve => .resolve template

/-- What is given with the command wins over what is given before it, and that over the stand-in. -/
def invocationOf (verb : Verb) (outer inner : Level) (standIn : Option String) : Invocation :=
  let path (field : Field) := ((textOf? inner field).or (textOf? outer field)).map Path.mk
  { command := commandOf verb inner
    verbose := outer.given.has .verbose || inner.given.has .verbose
    quiet := outer.given.has .quiet || inner.given.has .quiet
    config := (path .config).or (standIn.map Path.mk)
    vault := path .vault }

def withCommand (standIn : Option String) (verb : Verb) (outer : Level) (words : List String) :
    Except Rejection Invocation := do
  let (inner, _) ← readLevel (some verb) {} words
  let inner ← close inner standIn
  checkLoudness inner
  checkPlaces verb inner
  let outer ← close outer standIn
  checkLoudness outer
  return invocationOf verb outer inner standIn

def withoutCommand (standIn : Option String) (outer : Level) : Except Rejection Invocation := do
  let outer ← close outer standIn
  .error (if outer.given = [] ∧ standIn = none then .helpForNothing else .missingCommand)

/-- A configuration is named by `standIn` where no option names one. -/
def parse (standIn : Option String) (words : List String) : Except Rejection Invocation := do
  match ← readLevel none {} words with
  | (outer, some (verb, rest)) => withCommand standIn verb outer rest
  | (outer, none) => withoutCommand standIn outer

end Arguments
end NoteStencil
