/-! Edit distance between two texts: the least number of characters to insert, delete or replace. Computed
row by row, one row per character of the first text. -/

namespace NoteStencil

/-- The rest of a row, from the row above and the value to the left. -/
def distanceRow (c : Char) : List Char → List Nat → Nat → List Nat
  | d :: t, diagonal :: above :: row, left =>
    let here := min (min (above + 1) (left + 1)) (diagonal + if c = d then 0 else 1)
    here :: distanceRow c t (above :: row) here
  | _, _, _ => []

def nextDistanceRow (t : List Char) (row : List Nat) (c : Char) : List Nat :=
  (row.headD 0 + 1) :: distanceRow c t row (row.headD 0 + 1)

def editDistance (s t : List Char) : Nat :=
  (s.foldl (nextDistanceRow t) (List.range (t.length + 1))).getLastD 0

end NoteStencil
