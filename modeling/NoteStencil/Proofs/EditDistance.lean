import NoteStencil.Text.Distance

/-! The rows of the edit distance hold, for each front part of the second text, the least number of edits that make the first text
into it. So the distance is the least number of characters to delete, insert or replace. -/

namespace NoteStencil

/-- One text made into another, character by character, in so many edits. -/
inductive Edits : List Char → List Char → Nat → Prop
  | done : Edits [] [] 0
  | keep {s t : List Char} {n : Nat} (c : Char) : Edits s t n → Edits (c :: s) (c :: t) n
  | replace {s t : List Char} {n : Nat} (c d : Char) : Edits s t n → Edits (c :: s) (d :: t) (n + 1)
  | delete {s t : List Char} {n : Nat} (c : Char) : Edits s t n → Edits (c :: s) t (n + 1)
  | insert {s t : List Char} {n : Nat} (d : Char) : Edits s t n → Edits s (d :: t) (n + 1)

/-- So many edits are enough, and no fewer are. -/
structure LeastEdits (s t : List Char) (n : Nat) : Prop where
  enough : Edits s t n
  least : ∀ m, Edits s t m → n ≤ m

variable {s t u : List Char} {c d : Char} {m n left : Nat} {row : List Nat}

theorem LeastEdits.unique (h : LeastEdits s t m) (h' : LeastEdits s t n) : m = n :=
  Nat.le_antisymm (h.least n h'.enough) (h'.least m h.enough)

/-! ### Edits from the end -/

theorem Edits.append {s' t' : List Char} {n' : Nat} (h : Edits s t n) (h' : Edits s' t' n') :
    Edits (s ++ s') (t ++ t') (n + n') := by
  induction h with
  | done => simpa using h'
  | keep c _ ih => exact .keep c ih
  | replace c d _ ih => rw [Nat.add_right_comm]; exact .replace c d ih
  | delete c _ ih => rw [Nat.add_right_comm]; exact .delete c ih
  | insert d _ ih => rw [Nat.add_right_comm]; exact .insert d ih

theorem Edits.reverse (h : Edits s t n) : Edits s.reverse t.reverse n := by
  induction h with
  | done => exact .done
  | keep c _ ih => simpa using ih.append (.keep c .done)
  | replace c d _ ih => simpa using ih.append (.replace c d .done)
  | delete c _ ih => simpa using ih.append (.delete c .done)
  | insert d _ ih => simpa using ih.append (.insert d .done)

/-- The last character of the first text is kept, replaced or deleted, or else the last of the second is inserted. -/
theorem Edits.concat_cases (h : Edits (s ++ [c]) (t ++ [d]) m) :
    (c = d ∧ Edits s t m) ∨ ∃ n, m = n + 1 ∧ (Edits s t n ∨ Edits s (t ++ [d]) n ∨ Edits (s ++ [c]) t n) := by
  have hback := h.reverse
  rw [List.reverse_concat, List.reverse_concat] at hback
  cases hback with
  | keep _ hrest => exact .inl ⟨rfl, by simpa using hrest.reverse⟩
  | replace _ _ hrest => exact .inr ⟨_, rfl, .inl (by simpa using hrest.reverse)⟩
  | delete _ hrest => exact .inr ⟨_, rfl, .inr (.inl (by simpa using hrest.reverse))⟩
  | insert _ hrest => exact .inr ⟨_, rfl, .inr (.inr (by simpa using hrest.reverse))⟩

/-! ### Least numbers of edits -/

theorem Edits.length_le (h : Edits s t n) : s.length ≤ t.length + n ∧ t.length ≤ s.length + n := by
  induction h with
  | done => exact ⟨Nat.zero_le _, Nat.zero_le _⟩
  | _ =>
    simp only [List.length_cons]
    omega

theorem edits_of_nil (t : List Char) : Edits [] t t.length := by
  induction t with
  | nil => exact .done
  | cons d t ih => exact .insert d ih

theorem leastEdits_of_nil (t : List Char) : LeastEdits [] t t.length := by
  refine ⟨edits_of_nil t, ?_⟩
  intro m h
  simpa using h.length_le.2

theorem edits_to_nil (s : List Char) : Edits s [] s.length := by
  induction s with
  | nil => exact .done
  | cons c s ih => exact .delete c ih

theorem leastEdits_nil (s : List Char) : LeastEdits s [] s.length := by
  refine ⟨edits_to_nil s, ?_⟩
  intro m h
  simpa using h.length_le.1

/-- What the last character of both texts comes to is the least of its four ways. -/
theorem LeastEdits.concat {above diagonal : Nat} (hdiagonal : LeastEdits s t diagonal)
    (habove : LeastEdits s (t ++ [d]) above) (hleft : LeastEdits (s ++ [c]) t left) :
    LeastEdits (s ++ [c]) (t ++ [d]) (min (min (above + 1) (left + 1)) (diagonal + if c = d then 0 else 1)) := by
  have hdelete : Edits (s ++ [c]) (t ++ [d]) (above + 1) := by
    simpa using habove.enough.append (.delete c .done)
  have hinsert : Edits (s ++ [c]) (t ++ [d]) (left + 1) := by
    simpa using hleft.enough.append (.insert d .done)
  have hmatch : Edits (s ++ [c]) (t ++ [d]) (diagonal + if c = d then 0 else 1) := by
    split
    · next he =>
      subst he
      exact hdiagonal.enough.append (.keep c .done)
    · exact hdiagonal.enough.append (.replace c d .done)
  constructor
  · rcases Nat.le_total (min (above + 1) (left + 1)) (diagonal + if c = d then 0 else 1) with hle | hle
    · rw [Nat.min_eq_left hle]
      rcases Nat.le_total (above + 1) (left + 1) with hle' | hle'
      · rwa [Nat.min_eq_left hle']
      · rwa [Nat.min_eq_right hle']
    · rwa [Nat.min_eq_right hle]
  · intro m h
    rcases h.concat_cases with ⟨rfl, hkept⟩ | ⟨n, rfl, hreplaced | hdeleted | hinserted⟩
    · have hle := hdiagonal.least m hkept
      rw [if_pos rfl]
      omega
    · have hle := hdiagonal.least n hreplaced
      split <;> omega
    · have hle := habove.least n hdeleted
      omega
    · have hle := hleft.least n hinserted
      omega

/-! ### Rows -/

/-- A row from a place in the second text on: for each further front part of it the least number of edits from `s`. -/
inductive Row (s : List Char) : List Char → List Char → List Nat → Prop
  | last {u : List Char} {n : Nat} : LeastEdits s u n → Row s u [] [n]
  | next {u t : List Char} {d : Char} {n : Nat} {row : List Nat} :
      LeastEdits s u n → Row s (u ++ [d]) t row → Row s u (d :: t) (n :: row)

theorem Row.head (h : Row s u t row) : LeastEdits s u (row.headD 0) := by
  cases h with
  | last hn => exact hn
  | next hn _ => exact hn

theorem Row.eq_cons (h : Row s u t row) : ∃ above more, row = above :: more := by
  cases h with
  | last _ => exact ⟨_, _, rfl⟩
  | next _ _ => exact ⟨_, _, rfl⟩

theorem Row.last_eq (h : Row s u t row) : LeastEdits s (u ++ t) (row.getLastD 0) := by
  induction h with
  | last hn => simpa using hn
  | @next u t d n row hn hrest ih =>
    obtain ⟨above, more, rfl⟩ := hrest.eq_cons
    simpa using ih

theorem row_of_nil (u t : List Char) : Row [] u t (List.range' u.length (t.length + 1)) := by
  induction t generalizing u with
  | nil => exact .last (leastEdits_of_nil u)
  | cons d t ih =>
    have hrest := ih (u ++ [d])
    rw [List.length_append, List.length_singleton] at hrest
    exact .next (leastEdits_of_nil u) hrest

theorem Row.distanceRow (h : Row s u t row) (hleft : LeastEdits (s ++ [c]) u left) :
    Row (s ++ [c]) u t (left :: NoteStencil.distanceRow c t row left) := by
  induction h generalizing left with
  | last _ => exact .last hleft
  | @next u t d n row hn hrest ih =>
    obtain ⟨above, more, rfl⟩ := hrest.eq_cons
    exact .next hleft (ih (hn.concat hrest.head hleft))

theorem Row.nextDistanceRow (h : Row s [] t row) : Row (s ++ [c]) [] t (NoteStencil.nextDistanceRow t row c) := by
  have hhead : row.headD 0 = s.length := h.head.unique (leastEdits_nil s)
  apply h.distanceRow
  rw [hhead]
  simpa using leastEdits_nil (s ++ [c])

theorem row_foldl (more : List Char) (h : Row s [] t row) : Row (s ++ more) [] t (more.foldl (nextDistanceRow t) row) := by
  induction more generalizing s row with
  | nil => simpa using h
  | cons c more ih =>
    have hnext := ih (h.nextDistanceRow (c := c))
    rwa [List.append_assoc] at hnext

/-- The edit distance is the least number of edits. -/
theorem leastEdits_editDistance (s t : List Char) : LeastEdits s t (editDistance s t) := by
  have hfirst : Row [] [] t (List.range (t.length + 1)) := by
    rw [List.range_eq_range']
    exact row_of_nil [] t
  exact (row_foldl s hfirst).last_eq

end NoteStencil
