import NoteStencil.Failure

/-! Where a document's leading block ends. A block opens on the very first line with exactly `---` and closes
at the next line that is exactly `---`; both belong to it, and all lines after it are the body. Lines are
pulled one at a time from a source that can fail, and a pulled line is never handed back. -/

namespace NoteStencil

def delimiter : String := "---"

def isDelimiter (line : String) : Bool := line == delimiter

/-- What a source still holds: lines, and refusals to read one. -/
abbrev LineSource := List (Except Fault String)

/-- A place in a source. Only lines that could be read count as consumed. -/
structure LineCursor where
  rest : LineSource
  origin : Path
  consumed : Nat := 0

/-- The start of a document: a complete block, or the first line when there is no block. -/
inductive Leading
  | block (lines : List String)
  | body (first : Option String)
  deriving DecidableEq, Repr

namespace LineCursor

def ofLines (lines : List String) (origin : Path) : LineCursor := ⟨lines.map .ok, origin, 0⟩

/-- A refusal is passed over, so the next call goes on behind it. -/
def next (c : LineCursor) : Except Failure (Option String) × LineCursor :=
  match c.rest with
  | [] => (.ok none, c)
  | .ok line :: rest => (.ok (some line), { c with rest, consumed := c.consumed + 1 })
  | .error fault :: rest => (.error (.unreadable c.origin fault), { c with rest })

/-- One round of a loop over the lines, which ends with the source but not at a refusal. -/
def item (c : LineCursor) : Option (Except Failure String) × LineCursor :=
  match c.next with
  | (.error failure, c') => (some (.error failure), c')
  | (.ok none, c') => (none, c')
  | (.ok (some line), c') => (some (.ok line), c')

/-- Lines up to and with the closing delimiter. -/
def takeBlock (origin : Path) : LineSource → Nat → Except Failure (List String) × LineCursor
  | [], n => (.error (.unclosedFrontmatter origin), ⟨[], origin, n⟩)
  | .error fault :: rest, n => (.error (.unreadable origin fault), ⟨rest, origin, n⟩)
  | .ok line :: rest, n =>
    if isDelimiter line then (.ok [line], ⟨rest, origin, n + 1⟩)
    else match takeBlock origin rest (n + 1) with
      | (.ok block, c) => (.ok (line :: block), c)
      | (.error failure, c) => (.error failure, c)

def takeLeading (c : LineCursor) : Except Failure Leading × LineCursor :=
  match c.next with
  | (.error failure, c') => (.error failure, c')
  | (.ok none, c') => (.ok (.body none), c')
  | (.ok (some first), c') =>
    if isDelimiter first then
      match takeBlock c'.origin c'.rest c'.consumed with
      | (.ok block, c'') => (.ok (.block (first :: block)), c'')
      | (.error failure, c'') => (.error failure, c'')
    else (.ok (.body (some first)), c')

/-- All lines left, or the first refusal among them. -/
def remaining (c : LineCursor) : Except Failure (List String) :=
  c.rest.mapM fun
    | .ok line => .ok line
    | .error fault => .error (.unreadable c.origin fault)

end LineCursor

/-- A document cut into its block, delimiters included, and its body. -/
structure Split where
  block : List String := []
  body : List String := []
  hasBlock : Bool := false
  deriving DecidableEq, Repr

namespace Split

/-- Lines between the delimiters. -/
def interior (s : Split) : List String := (s.block.drop 1).dropLast

/-- Index of the closing delimiter in the document. -/
def closingLine (s : Split) : Option Nat :=
  if s.hasBlock then some (s.block.length - 1) else none

end Split

def LineCursor.split (c : LineCursor) : Except Failure Split :=
  match c.takeLeading with
  | (.error failure, _) => .error failure
  | (.ok (.block block), c') => c'.remaining.map fun body => { block, body, hasBlock := true }
  | (.ok (.body first), c') => c'.remaining.map fun body => { body := first.toList ++ body }

end NoteStencil
