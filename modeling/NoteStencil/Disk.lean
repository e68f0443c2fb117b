import NoteStencil.FileSystem.Access

/-! The part of a real disk that a run can reach, taken as a file system before the run and brought up to date
after it. -/

namespace NoteStencil
namespace Disk

def textOf (place : Place) : String := "/" ++ "/".intercalate place

def placeOf (text : String) : Place := FileSystem.steps ⟨text⟩

/-- Where a link leads in the end; a link that leads nowhere is left without a target that can be found. -/
def linkTarget (place : Place) : IO Path := do
  try
    return ⟨(← IO.FS.realPath (textOf place)).toString⟩
  catch _ => return ⟨"/dev/null/nowhere"⟩

/-- What stands at a place, a link not followed. -/
def nodeAt (place : Place) : IO (Option Node) := do
  try
    let root ← IO.currentDir
    match (← (root / textOf place).symlinkMetadata).type with
    | .dir => return some .directory
    | .symlink => return some (.link (← linkTarget place))
    | _ => return some (.file (← IO.FS.readBinFile (textOf place)).toList)
  catch _ => return none

/-- Adds what stands on the way to a place and at it, following links a bounded number of times. -/
def addWay (fs : FileSystem) : Nat → Place → Place → IO FileSystem
  | _, _, [] => return fs
  | 0, _, _ => return fs
  | fuel + 1, here, name :: rest => do
    let place := here ++ [name]
    let known := fs.node? place
    let found ← match known with
      | some node => pure (some node)
      | none => nodeAt place
    match found with
    | none => return fs
    | some node =>
      let fs := if known.isSome then fs else fs.put place node
      match node with
      | .link target => addWay fs fuel [] (placeOf target.text ++ rest)
      | _ => addWay fs fuel place rest

def wayLimit : Nat := 4096

/-- Adds a path, given from the root or from the working directory. -/
def addPath (fs : FileSystem) (p : Path) : IO FileSystem :=
  addWay fs wayLimit [] ((fs.start p ++ FileSystem.steps p).foldl
    (fun here step => if step = "." then here else if step = ".." then here.dropLast else here ++ [step]) [])

/-- Adds all that stands below a directory, each directory once however many links lead to it. -/
partial def addBelow (fs : FileSystem) (done : List Place) (p : Path) : IO (FileSystem × List Place) := do
  let fs ← addPath fs p
  match fs.place? p with
  | none => return (fs, done)
  | some place =>
    if place ∈ done ∨ fs.node? place ≠ some .directory then return (fs, done)
    let root ← IO.currentDir
    let entries ← try (root / textOf place).readDir catch _ => pure #[]
    let mut state := (fs, place :: done)
    for entry in entries do
      state ← addBelow state.1 state.2 ⟨textOf (place ++ [entry.fileName])⟩
    return state

/-- Makes the directories and writes the files that are new or have changed. -/
def update (before after : FileSystem) : IO Unit := do
  for (place, node) in after.entries do
    if before.node? place ≠ some node then
      match node with
      | .directory => IO.FS.createDir (textOf place)
      | .file octets => IO.FS.writeBinFile (textOf place) ⟨octets.toArray⟩
      | .link _ => return

end Disk
end NoteStencil
