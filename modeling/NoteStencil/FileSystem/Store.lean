import NoteStencil.Failure
import NoteStencil.FileSystem.Access

/-! Files and directories for the operations on notes: a refusal of the system becomes a failure that names the
path and what was being done to it. -/

namespace NoteStencil
namespace FileSystem

def textAt (fs : FileSystem) (p : Path) : Except Failure String :=
  match fs.readText p with
  | .ok text => .ok text
  | .error fault => .error (.unreadable p fault)

def storeText (fs : FileSystem) (p : Path) (text : String) : Except Failure Unit × FileSystem :=
  match fs.writeText p text with
  | .ok fs' => (.ok (), fs')
  | .error fault => (.error (.unwritable p fault), fs)

def ensureDirectory (fs : FileSystem) (d : Path) : Except Failure Unit × FileSystem :=
  match fs.makeDirectories d with
  | (.ok (), fs') => (.ok (), fs')
  | (.error fault, fs') => (.error (.directoryNotMade d fault), fs')

/-- Makes the directory that the path lies in, unless that is the empty path. -/
def ensureParent (fs : FileSystem) (p : Path) : Except Failure Unit × FileSystem :=
  match p.directory with
  | none => (.ok (), fs)
  | some d => fs.ensureDirectory d

end FileSystem
end NoteStencil
