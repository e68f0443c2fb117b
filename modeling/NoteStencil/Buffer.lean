import NoteStencil.FileSystem.Store

/-! A document open for editing: its lines and a cursor. Ranges start at zero and leave their end out; a bound
past the last line counts as the line count. -/

namespace NoteStencil

structure Buffer where
  lines : List String := []
  cursor : Nat := 0
  deriving DecidableEq, Repr

namespace Buffer

def count (b : Buffer) : Nat := b.lines.length

/-- Lines `start` to `stop`, the latter left out; a `start` past `stop` is moved back to it. -/
def slice (b : Buffer) (start stop : Nat) : List String :=
  let stop := min stop b.count
  let start := min start stop
  (b.lines.drop start).take (stop - start)

/-- Puts `new` in place of a range; an empty range inserts. The cursor stays where it is. -/
def replace (b : Buffer) (start stop : Nat) (new : List String) : Buffer :=
  let stop := min stop b.count
  let start := min start stop
  { b with lines := b.lines.take start ++ new ++ b.lines.drop stop }

def setCursor (b : Buffer) (line : Nat) : Buffer := { b with cursor := min line b.count }

def text (b : Buffer) : String :=
  if b.lines = [] then "" else joinLines b.lines ++ "\n"

/-- A file that is not there gives an empty buffer. -/
def load (fs : FileSystem) (p : Path) : Except Failure Buffer :=
  if fs.exists? p then (fs.textAt p).map fun text => { lines := textLines text } else .ok {}

def save (b : Buffer) (fs : FileSystem) (p : Path) : Except Failure Unit × FileSystem :=
  fs.storeText p b.text

end Buffer
end NoteStencil
