import NoteStencil.Fault
import NoteStencil.Path

/-! A file system as a finite map from places to files, directories and links. A place is the list of names
that leads to it from the root without passing a link, so two texts name one file exactly when they resolve
to one place. Resolving follows at most forty links. -/

namespace NoteStencil

abbrev Place := List String

inductive Node
  | file (content : List UInt8)
  | directory
  | link (target : Path)
  deriving DecidableEq, Repr

/-- The root is a directory that is not listed. Relative paths start at `workdir`. -/
structure FileSystem where
  entries : List (Place × Node) := []
  workdir : Place := []

namespace FileSystem

def node? (fs : FileSystem) (place : Place) : Option Node :=
  if place = [] then some .directory else fs.entries.lookup place

def putEntry (place : Place) (node : Node) : List (Place × Node) → List (Place × Node)
  | [] => [(place, node)]
  | e :: rest => if e.1 = place then (place, node) :: rest else e :: putEntry place node rest

def put (fs : FileSystem) (place : Place) (node : Node) : FileSystem :=
  { fs with entries := putEntry place node fs.entries }

/-- The names in a directory. -/
def children (fs : FileSystem) (place : Place) : List String :=
  fs.entries.filterMap fun e => if e.1.dropLast = place then e.1.getLast? else none

def below (fs : FileSystem) (place : Place) : List (Place × Node) :=
  fs.entries.filterMap fun e =>
    if place.isPrefixOf e.1 ∧ e.1 ≠ place then some (e.1.drop place.length, e.2) else none

/-- Where a path leads: to something that is there, or to a name that its directory does not have. -/
inductive Target
  | found (place : Place)
  | absent (directory : Place) (name : String)
  deriving DecidableEq, Repr

/-- Longest name a directory can hold, in octets. -/
def nameLimit : Nat := 255

/-- Shortest path text that is refused, in octets. -/
def pathLimit : Nat := 4096

def linkLimit : Nat := 40

def steps (p : Path) : List String :=
  ((Path.slashPieces p.chars).filter (· ≠ [])).map String.ofList

def endsInSlash (p : Path) : Bool := p.chars.getLast? == some '/'

/-- A slash at the end asks for a directory, as a `.` there does. -/
def closedSteps (p : Path) : List String :=
  steps p ++ if endsInSlash p then ["."] else []

/-- One walk up to the next link, which is handed to `follow` with what is left to walk. -/
def walkSteps (fs : FileSystem) (follow : Place → List String → Except Fault Target) :
    Place → List String → Except Fault Target
  | here, [] => .ok (.found here)
  | here, step :: rest =>
    if fs.node? here ≠ some .directory then .error .notDirectory
    else if step = "." then walkSteps fs follow here rest
    else if step = ".." then walkSteps fs follow here.dropLast rest
    else if nameLimit < step.utf8ByteSize then .error .nameTooLong
    else match fs.node? (here ++ [step]) with
      | none => if rest = [] then .ok (.absent here step) else .error .noEntry
      | some (.link target) =>
        follow (if target.isAbsolute then [] else here) (closedSteps target ++ rest)
      | some _ => walkSteps fs follow (here ++ [step]) rest

def walk (fs : FileSystem) : Nat → Place → List String → Except Fault Target
  | 0 => walkSteps fs fun _ _ => .error .tooManyLinks
  | links + 1 => walkSteps fs (walk fs links)

/-- Refusals that the text of a path alone brings. -/
def textFault (p : Path) : Option Fault :=
  if p.chars.contains '\x00' then some .zeroInName
  else if p.isEmpty then some .noEntry
  else if pathLimit ≤ p.text.utf8ByteSize then some .nameTooLong
  else none

def start (fs : FileSystem) (p : Path) : Place := if p.isAbsolute then [] else fs.workdir

def locate (fs : FileSystem) (p : Path) : Except Fault Target :=
  match textFault p with
  | some fault => .error fault
  | none => fs.walk linkLimit (fs.start p) (closedSteps p)

/-- The place of an existing file or directory, links followed. -/
def place? (fs : FileSystem) (p : Path) : Option Place :=
  match fs.locate p with
  | .ok (.found place) => some place
  | _ => none

def isAt (fs : FileSystem) (p : Path) (test : Node → Bool) : Bool :=
  ((fs.place? p).bind fs.node?).any test

def exists? (fs : FileSystem) (p : Path) : Bool := (fs.place? p).isSome

def isFile (fs : FileSystem) (p : Path) : Bool :=
  fs.isAt p fun | .file _ => true | _ => false

def isDirectory (fs : FileSystem) (p : Path) : Bool :=
  fs.isAt p fun | .directory => true | _ => false

/-- Whether both paths name the same existing file. -/
def sameFile (fs : FileSystem) (p q : Path) : Bool :=
  match fs.place? p, fs.place? q with
  | some a, some b => a == b
  | _, _ => false

end FileSystem
end NoteStencil
