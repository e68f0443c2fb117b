import NoteStencil.Path
import NoteStencil.Table
import NoteStencil.Text.Alphanumeric

/-! Variables of the environment, and texts in which they are written. A variable is written as `$name`, or as
`${name}` with an optional value for when it is not set; a doubled dollar sign stands for one. A tilde at the
front, alone or before a slash, is the home directory. -/

namespace NoteStencil

structure Environment where
  values : Table String String := []
  /-- Home directory of the account, for when no variable names one. -/
  accountHome : Option String := none
  deriving DecidableEq, Repr

namespace Environment

def find? (e : Environment) (name : String) : Option String := e.values.find? name

def home? (e : Environment) : Option String :=
  ((e.find? "HOME").filter (· ≠ "")).or e.accountHome

def isNameChar (c : Char) : Bool := isAlphanumeric c || c == '_'

/-- What stands before the first `:-`, and after it. -/
def cutAtDefault : List Char → Option (List Char × List Char)
  | ':' :: '-' :: rest => some ([], rest)
  | c :: rest => (cutAtDefault rest).map fun (name, value) => (c :: name, value)
  | [] => none

/-- A braced name and its default, which needs a name before it. -/
def reference (inside : List Char) : List Char × Option (List Char) :=
  match cutAtDefault inside with
  | some (c :: name, value) => (c :: name, some value)
  | _ => (inside, none)

/-- A text as variables that are written in it and the characters between them. -/
inductive Part
  | text (c : Char)
  | variable (name : List Char) (default : Option (List Char))
  deriving DecidableEq, Repr

/-- A doubled dollar sign is one, and a brace that is never closed stands for itself. -/
def parts : List Char → List Part
  | [] => []
  | '$' :: '$' :: rest => .text '$' :: parts rest
  | '$' :: '{' :: rest =>
    if rest.contains '}' then
      let inside := rest.takeWhile (· ≠ '}')
      .variable (reference inside).1 (reference inside).2 :: parts (rest.drop (inside.length + 1))
    else .text '$' :: .text '{' :: parts rest
  | '$' :: c :: rest =>
    if isNameChar c then
      let more := rest.takeWhile isNameChar
      .variable (c :: more) none :: parts (rest.drop more.length)
    else .text '$' :: parts (c :: rest)
  | c :: rest => .text c :: parts rest
termination_by cs => cs.length

/-- Names of the variables in a text. -/
def names (text : String) : List String :=
  (parts text.toList).filterMap fun
    | .variable name _ => some (String.ofList name)
    | .text _ => none

/-- Value of a variable or its default; the name, when it has neither. -/
def lookUp (e : Environment) (name : List Char) (default : Option (List Char)) :
    Except String (List Char) :=
  match e.find? (String.ofList name), default with
  | some value, _ => .ok value.toList
  | none, some value => .ok value
  | none, none => .error (String.ofList name)

/-- Puts in the values of variables; fails with the name of the first that has none. -/
def substitute (e : Environment) : List Part → Except String (List Char)
  | [] => .ok []
  | .text c :: rest => (e.substitute rest).map (c :: ·)
  | .variable name default :: rest =>
    match e.lookUp name default with
    | .error name => .error name
    | .ok value => (e.substitute rest).map (value ++ ·)

def expandTilde (e : Environment) (text : List Char) : List Char :=
  match text with
  | '~' :: rest =>
    match e.home? with
    | some home => if rest = [] ∨ rest.head? = some '/' then home.toList ++ rest else text
    | none => text
  | _ => text

/-- A tilde that only a variable brought to the front stays as it is. -/
def expand (e : Environment) (text : String) : Except String String :=
  (e.substitute (parts text.toList)).map fun out =>
    String.ofList (if text.toList.head? = some '~' then e.expandTilde out else out)

end Environment
end NoteStencil
