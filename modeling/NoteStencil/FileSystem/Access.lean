import NoteStencil.FileSystem.Basic
import NoteStencil.Text.Lines
import NoteStencil.Text.Utf8

/-! Reading, writing and making directories. A write changes one file or none. Making a directory with
everything above it can stop half-way, and then what was made stays. -/

namespace NoteStencil
namespace FileSystem

def read (fs : FileSystem) (p : Path) : Except Fault (List UInt8) :=
  match fs.locate p with
  | .error fault => .error fault
  | .ok (.absent _ _) => .error .noEntry
  | .ok (.found place) =>
    match fs.node? place with
    | some (.file content) => .ok content
    | some .directory => .error .isDirectory
    | _ => .error .noEntry

def readText (fs : FileSystem) (p : Path) : Except Fault String :=
  match fs.read p with
  | .error fault => .error fault
  | .ok octets => match decodeUtf8 octets with
    | some text => .ok text
    | none => .error .notUtf8

/-- The lines of a stream of octets, each read on its own. -/
def octetLines (octets : List UInt8) : List (Except Fault String) :=
  (cutLines 10 13 octets).map fun line => match decodeUtf8 line with
    | some text => .ok text
    | none => .error .notUtf8

/-- A path that ends in a slash, `.` or `..` cannot be opened for writing, once its directory is found. -/
def writeTarget (fs : FileSystem) (p : Path) : Except Fault Target :=
  match textFault p with
  | some fault => .error fault
  | none =>
    let last := (steps p).getLast?
    if endsInSlash p ∨ last = none ∨ last = some "." ∨ last = some ".." then
      match fs.walk linkLimit (fs.start p) ((steps p).dropLast ++ ["."]) with
      | .error fault => .error fault
      | .ok _ => .error .isDirectory
    else fs.walk linkLimit (fs.start p) (steps p)

/-- Makes the file, or replaces what it holds; a link that leads nowhere gets its target made. -/
def write (fs : FileSystem) (p : Path) (octets : List UInt8) : Except Fault FileSystem :=
  match fs.writeTarget p with
  | .error fault => .error fault
  | .ok (.absent directory name) => .ok (fs.put (directory ++ [name]) (.file octets))
  | .ok (.found place) =>
    match fs.node? place with
    | some (.file _) => .ok (fs.put place (.file octets))
    | _ => .error .isDirectory

def writeText (fs : FileSystem) (p : Path) (text : String) : Except Fault FileSystem :=
  fs.write p (encodeUtf8 text)

/-- A link is not followed: whatever stands at the name already is in the way. -/
def makeDirectory (fs : FileSystem) (p : Path) : Except Fault FileSystem :=
  match textFault p with
  | some fault => .error fault
  | none =>
    match (steps p).getLast? with
    | none => .error .alreadyExists
    | some name =>
      match fs.walk linkLimit (fs.start p) ((steps p).dropLast ++ ["."]) with
      | .error fault => .error fault
      | .ok (.absent _ _) => .error .noEntry
      | .ok (.found directory) =>
        if name = "." ∨ name = ".." then .error .alreadyExists
        else if fs.node? directory ≠ some .directory then .error .notDirectory
        else if nameLimit < name.utf8ByteSize then .error .nameTooLong
        else if (fs.node? (directory ++ [name])).isSome then .error .alreadyExists
        else .ok (fs.put (directory ++ [name]) .directory)

def makeChain : FileSystem → List Path → Except Fault Unit × FileSystem
  | fs, [] => (.ok (), fs)
  | fs, p :: above =>
    if p.isEmpty then (.ok (), fs)
    else match fs.makeDirectory p with
      | .ok fs' => (.ok (), fs')
      | .error fault =>
        if fault = .noEntry then
          match makeChain fs above with
          | (.error fault', fs') => (.error fault', fs')
          | (.ok (), fs') => match fs'.makeDirectory p with
            | .ok fs'' => (.ok (), fs'')
            | .error fault' => if fs'.isDirectory p then (.ok (), fs') else (.error fault', fs')
        else if fs.isDirectory p then (.ok (), fs)
        else (.error fault, fs)

/-- The path and all paths above it, nearest first. -/
def chainAbove : Nat → Path → List Path
  | 0, _ => []
  | n + 1, p => p :: match p.parent with
    | none => []
    | some q => chainAbove n q

def makeDirectories (fs : FileSystem) (p : Path) : Except Fault Unit × FileSystem :=
  makeChain fs (chainAbove (p.chars.length + 1) p)

end FileSystem
end NoteStencil
