import NoteStencil.Failure
import NoteStencil.FileSystem.Listing
import NoteStencil.Text.Distance

/-! Templates by reference. A reference is tried as given and with `.md` behind it, first inside the templates
directory and then as a path of its own; the first that is a file is meant. When none is, templates with a
similar name are suggested. -/

namespace NoteStencil
namespace Template

def suffix : String := ".md"

/-- The path, and the path with the suffix unless it has it. -/
def spellings (p : Path) : List Path :=
  if p.hasSuffix suffix then [p] else [p, p.append suffix]

def candidates (directory : Path) (reference : String) : List Path :=
  spellings (directory.join ⟨reference⟩) ++ spellings ⟨reference⟩

/-- Order of paths below a directory, name by name. -/
def namesLe : List String → List String → Bool
  | [], _ => true
  | _ :: _, [] => false
  | a :: as, b :: bs => if a = b then namesLe as bs else decide (a < b)

/-- Markdown files below the directory, relative to it and in order. -/
def list (fs : FileSystem) (directory : Path) : List Path :=
  ((fs.markdownBelow directory).mergeSort namesLe).map Path.ofNames

def withoutSuffix (name : List Char) : List Char :=
  if suffix.toList.isSuffixOf name then name.take (name.length - suffix.length) else name

/-- A template's name as it can be given, with slashes only. -/
def nameOf (p : Path) : String :=
  String.ofList (p.chars.map fun c => if c = '\\' then '/' else c)

/-- Half the size of the wanted name in octets. -/
def distanceLimit (wanted : List Char) : Nat := (String.ofList wanted).utf8ByteSize * 50 / 100

def scored (wanted : List Char) (name : String) : String × Nat :=
  (name, editDistance wanted (withoutSuffix name.toList))

def scoreLe (a b : String × Nat) : Bool :=
  if a.2 = b.2 then decide (a.1 ≤ b.1) else decide (a.2 < b.2)

/-- The three nearest names that are near enough, in alphabetical order among equals. -/
def nearest (wanted : List Char) (names : List String) : List String :=
  ((((names.map (scored wanted)).filter (·.2 ≤ distanceLimit wanted)).mergeSort scoreLe).take 3).map (·.1)

def suggestions (fs : FileSystem) (directory : Path) (reference : String) : List String :=
  nearest (withoutSuffix reference.toList) ((list fs directory).map nameOf)

def resolve (fs : FileSystem) (directory : Option Path) (reference : String) : Except Failure Path :=
  match directory with
  | none => .error .templatesDirUndefined
  | some d =>
    match (candidates d reference).find? fs.isFile with
    | some p => .ok p
    | none => .error (.templateNotFound reference d (suggestions fs d reference))

/-- Warnings of the listing that a failed look-up makes for its suggestions. -/
def resolveWarnings (fs : FileSystem) (directory : Option Path) (reference : String) : List String :=
  match directory with
  | none => []
  | some d => if ((candidates d reference).find? fs.isFile).isSome then [] else fs.listingWarnings d

end Template
end NoteStencil
