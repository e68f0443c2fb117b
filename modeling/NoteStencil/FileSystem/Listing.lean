import NoteStencil.FileSystem.Basic

/-! Everything below a directory, links followed. A link that leads nowhere, or back to a directory on the
way down to it, is reported and not entered, so the walk ends. -/

namespace NoteStencil
namespace FileSystem

/-- One stop of a walk, by the names from its start. -/
inductive Visit
  | entry (names : List String)
  | unreadable
  deriving DecidableEq, Repr

/-- What a walk meets at a name in a directory; `enter` walks on below it. `trail` holds the places of the directories on
the way down, `names` the names from the start. A directory that its path does not lead to is met and not entered. -/
def visitAt (fs : FileSystem) (root : Path) (enter : List Place → List String → Place → List Visit)
    (trail : List Place) (names : List String) (here : Place) (name : String) : List Visit :=
  let names' := names ++ [name]
  match fs.node? (here ++ [name]), fs.place? (root.joinAll names') with
  | none, _ => []
  | some (.file _), _ => [.entry names']
  | some .directory, none => [.entry names', .unreadable]
  | some .directory, some place => .entry names' :: enter (place :: trail) names' place
  | some (.link _), none => [.unreadable]
  | some (.link _), some place =>
    if fs.node? place ≠ some .directory then [.entry names']
    else if place ∈ trail then [.unreadable]
    else .entry names' :: enter (place :: trail) names' place

def visits (fs : FileSystem) (root : Path) : Nat → List Place → List String → Place → List Visit
  | 0, _, _, _ => []
  | depth + 1, trail, names, here =>
    (fs.children here).flatMap (fs.visitAt root (visits fs root depth) trail names here)

/-- Real steps down between two links, and links to directories not yet on the trail, are both bounded by
the number of entries. -/
def depthBound (fs : FileSystem) : Nat := (fs.entries.length + 2) * (fs.entries.length + 2)

def visitsBelow (fs : FileSystem) (root : Path) : List Visit :=
  match fs.place? root with
  | none => []
  | some place => .entry [] :: visits fs root fs.depthBound [place] [] place

/-- Names from the directory to each markdown file below it. -/
def markdownBelow (fs : FileSystem) (root : Path) : List (List String) :=
  (fs.visitsBelow root).filterMap fun
    | .unreadable => none
    | .entry names =>
      if fs.isFile (root.joinAll names) ∧ (root.joinAll names).isMarkdown then some names else none

def unreadableBelow (fs : FileSystem) (root : Path) : Bool :=
  (fs.visitsBelow root).contains .unreadable

/-- The same text however many entries were passed over. -/
def listingWarnings (fs : FileSystem) (root : Path) : List String :=
  if fs.unreadableBelow root then ["Skipping unreadable entry under " ++ root.text ++ ": it leads nowhere"]
  else []

/-- Markdown files below the directory, as paths that start with it. -/
def markdownFiles (fs : FileSystem) (root : Path) : List Path :=
  (fs.markdownBelow root).map root.joinAll

end FileSystem
end NoteStencil
