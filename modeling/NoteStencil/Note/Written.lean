import NoteStencil.FileSystem.Store
import NoteStencil.Frontmatter
import NoteStencil.Note.Basic
import NoteStencil.Yaml.Written

/-! Notes as lines: the block, when there is something to put into it, and the body. -/

namespace NoteStencil
namespace Note

/-- What a failure to write metadata names as its origin. -/
def origin (n : Note) : Path := n.path.getD ⟨n.displayName⟩

def unwritableReason : String := "the metadata has no written form"

/-- The lines of the metadata, none when there is nothing to write. -/
def metadataLines (n : Note) : Except Failure (List String) :=
  if n.frontmatter = [] then .ok []
  else match Yaml.write? n.frontmatter with
    | some text => .ok (textLines text)
    | none => .error (.metadata n.origin unwritableReason)

/-- The block with its delimiters. -/
def blockLines (n : Note) : Except Failure (List String) :=
  n.metadataLines.map fun lines => delimiter :: lines ++ [delimiter]

def hasBlock (n : Note) : Bool := n.hasFrontmatter || !n.frontmatter.isEmpty

def toLines (n : Note) : Except Failure (List String) :=
  if n.hasBlock then n.blockLines.map (· ++ n.body) else .ok n.body

def fileText (lines : List String) : String := joinLines lines ++ "\n"

/-- Makes the directory of the path first, even when the note then cannot be written. -/
def save (n : Note) (fs : FileSystem) (p : Path) : Except Failure Unit × FileSystem :=
  match fs.ensureParent p with
  | (.error failure, fs') => (.error failure, fs')
  | (.ok (), fs') => match n.toLines with
    | .error failure => (.error failure, fs')
    | .ok lines => fs'.storeText p (fileText lines)

end Note

/-- The warning that goes with a failure, for metadata without written form. -/
def Failure.warning : Failure → Option String
  | .metadata origin reason =>
    if reason = Note.unwritableReason then
      some ("Cannot render frontmatter of " ++ origin.text ++ ": " ++ reason)
    else none
  | _ => none

end NoteStencil
