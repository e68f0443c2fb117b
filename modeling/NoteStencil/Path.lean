/-! Paths as they were written. A path keeps its text, so that joining and showing lose nothing; what it names
is read off its components, where repeated slashes, a slash at the end and every `.` but a leading one do
not count. -/

namespace NoteStencil

structure Path where
  text : String
  deriving DecidableEq, Inhabited, Repr

namespace Path

inductive Component
  | root
  | here
  | up
  | name (text : String)
  deriving DecidableEq, Repr

/-- Texts between the slashes, so one more than there are slashes. -/
def slashPieces : List Char → List (List Char)
  | [] => [[]]
  | c :: rest =>
    if c = '/' then [] :: slashPieces rest
    else match slashPieces rest with
      | [] => [[c]]
      | piece :: more => (c :: piece) :: more

def joinPieces (pieces : List (List Char)) : List Char :=
  ['/'].intercalate pieces

/-- A piece that names nothing: the empty one, and `.`. -/
def isFiller (piece : List Char) : Bool :=
  piece == [] || piece == ['.']

def chars (p : Path) : List Char := p.text.toList

def isAbsolute (p : Path) : Bool := p.chars.head? == some '/'

def isEmpty (p : Path) : Bool := p.chars.isEmpty

def pieceComponent (piece : List Char) : Component :=
  if piece = ['.', '.'] then .up else .name (String.ofList piece)

def components (p : Path) : List Component :=
  let pieces := slashPieces p.chars
  let lead := if p.isAbsolute then [.root] else if pieces.head? = some ['.'] then [.here] else []
  lead ++ (pieces.filter (!isFiller ·)).map pieceComponent

/-- Without the last component; none for the root and for the empty path. -/
def parent (p : Path) : Option Path :=
  match slashPieces p.chars with
  | [] => none
  | first :: rest =>
    let above (base : List (List Char)) (short : String) : Path :=
      if base = [] then ⟨short⟩ else ⟨String.ofList (joinPieces (first :: base))⟩
    match List.reverse (rest.reverse.dropWhile isFiller) with
    | [] => if first = [] then none else some ⟨""⟩
    | kept =>
      let base := List.reverse (kept.dropLast.reverse.dropWhile isFiller)
      some (above base (if first = [] then "/" else String.ofList first))

def fileName (p : Path) : Option String :=
  match p.components.getLast? with
  | some (.name text) => some text
  | _ => none

/-- What stands before and after the last dot; a dot at the front starts a name without extension. -/
def splitAtDot (name : List Char) : List Char × Option (List Char) :=
  let after := List.reverse (name.reverse.takeWhile (· ≠ '.'))
  let before := name.take (name.length - after.length - 1)
  if after.length = name.length ∨ before = [] then (name, none) else (before, some after)

def fileStem (p : Path) : Option String :=
  p.fileName.map fun name => String.ofList (splitAtDot name.toList).1

def extension (p : Path) : Option String :=
  p.fileName.bind fun name => (splitAtDot name.toList).2.map String.ofList

/-- An absolute second path stands alone. -/
def join (p q : Path) : Path :=
  if q.isAbsolute then q
  else if p.isEmpty ∨ p.chars.getLast? = some '/' then ⟨p.text ++ q.text⟩
  else ⟨p.text ++ "/" ++ q.text⟩

/-- The path with each of the names joined to it in turn. -/
def joinAll (p : Path) (names : List String) : Path := names.foldl (fun q name => q.join ⟨name⟩) p

def append (p : Path) (suffix : String) : Path := ⟨p.text ++ suffix⟩

def ofNames (names : List String) : Path := ⟨"/".intercalate names⟩

def hasSuffix (p : Path) (suffix : String) : Bool :=
  suffix.toList.isSuffixOf p.chars

/-- The directory to make before writing to the path: its parent, unless that is the empty path. -/
def directory (p : Path) : Option Path :=
  p.parent.filter (!·.isEmpty)

def asciiLower (s : String) : String := String.ofList (s.toList.map Char.toLower)

def isMarkdown (p : Path) : Bool :=
  p.extension.any fun e => asciiLower e == "md" || asciiLower e == "markdown"

end Path
end NoteStencil
