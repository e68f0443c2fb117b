/-! Finite maps as lists of pairs in the order in which their keys were first put in. Putting a key that is
there keeps its place and gives it the new value. -/

namespace NoteStencil

abbrev Table (κ α : Type) := List (κ × α)

namespace Table

variable {κ α : Type} [BEq κ]

def find? (t : Table κ α) (k : κ) : Option α := (List.find? (fun e => k == e.1) t).map (·.2)

def has (t : Table κ α) (k : κ) : Bool := (t.find? k).isSome

def put (k : κ) (v : α) : Table κ α → Table κ α
  | [] => [(k, v)]
  | e :: rest => if k == e.1 then (e.1, v) :: rest else e :: put k v rest

/-- Adds what is not there yet. -/
def putNew (k : κ) (v : α) (t : Table κ α) : Table κ α := if t.has k then t else t.put k v

theorem find?_put_self [ReflBEq κ] (t : Table κ α) (k : κ) (v : α) : (t.put k v).find? k = some v := by
  induction t with
  | nil => simp [put, find?]
  | cons e rest ih =>
    unfold put
    split
    · next h => simp [find?, h]
    · next h => simpa [find?, h] using ih

theorem find?_put_of_ne [LawfulBEq κ] (t : Table κ α) {k k' : κ} (v : α) (h : k' ≠ k) :
    (t.put k v).find? k' = t.find? k' := by
  induction t with
  | nil => simp [put, find?, h]
  | cons e rest ih =>
    unfold put
    split
    · next he =>
      have : k = e.1 := by simpa using he
      simp [find?, ← this, h]
    · by_cases hk : k' == e.1
      · simp [find?, hk]
      · simpa [find?, hk] using ih

end Table
end NoteStencil
