import NoteStencil.Expansion
import NoteStencil.Note.Read
import NoteStencil.Note.Written

/-! A template's block merged into a note. The block is expanded and read before the note is touched, so a block
that cannot be read leaves the note as it was; one that gives the note metadata without written form does
not. -/

namespace NoteStencil

/-- What an operation on a note leaves behind, also when it fails. -/
structure Merged (σ : Type) where
  lines : Except Failure (List String)
  target : Note
  context : Context
  state : σ

/-- The lines are the note's block afterwards. -/
def mergeBlock (p : Prompter σ) (block : List String) (origin : Path) (target : Note) (c : Context) (s : σ) :
    Merged σ :=
  match expandLines p block c s with
  | (lines, c', s') =>
    match Note.ofLines lines (some origin) with
    | .error failure => ⟨.error failure, target, c', s'⟩
    | .ok template =>
      let target' := target.absorb template
      ⟨target'.blockLines, target', c', s'⟩

end NoteStencil
