import NoteStencil.Table

/-! Tables of texts whose keys stand in ascending order, each once. Equal as lists means equal as maps. -/

namespace NoteStencil

structure Dictionary where
  entries : Table String String
  ascending : entries.Pairwise (·.1 < ·.1)
  deriving DecidableEq

namespace Dictionary

def empty : Dictionary := ⟨[], .nil⟩

instance : Inhabited Dictionary := ⟨empty⟩

def insertEntry (key text : String) : Table String String → Table String String
  | [] => [(key, text)]
  | e :: rest =>
    if key < e.1 then (key, text) :: e :: rest
    else if key = e.1 then (key, text) :: rest
    else e :: insertEntry key text rest

theorem mem_insertEntry {key text : String} {t : Table String String} {e : String × String}
    (h : e ∈ insertEntry key text t) : e = (key, text) ∨ e ∈ t := by
  induction t with
  | nil => simpa [insertEntry] using h
  | cons d rest ih => grind [insertEntry]

theorem insertEntry_ascending {key text : String} {t : Table String String}
    (h : t.Pairwise (·.1 < ·.1)) : (insertEntry key text t).Pairwise (·.1 < ·.1) := by
  induction t with
  | nil => simp [insertEntry]
  | cons d rest ih =>
    rw [List.pairwise_cons] at h
    unfold insertEntry
    split
    · next hlt =>
      refine .cons (fun e he => ?_) (.cons h.1 h.2)
      rcases List.mem_cons.1 he with rfl | he
      · exact hlt
      · exact String.lt_trans hlt (h.1 e he)
    · next hge =>
      split
      · next heq => exact .cons (fun e he => heq ▸ h.1 e he) h.2
      · next hne =>
        refine .cons (fun e he => ?_) (ih h.2)
        rcases mem_insertEntry he with rfl | he
        · exact Std.lt_of_le_of_ne (String.not_lt.1 hge) (Ne.symm hne)
        · exact h.1 e he

/-- Gives a key its text, in place of one it had. -/
def insert (d : Dictionary) (key text : String) : Dictionary :=
  ⟨insertEntry key text d.entries, insertEntry_ascending d.ascending⟩

/-- Of two texts for one key the later one counts. -/
def ofList (entries : List (String × String)) : Dictionary :=
  entries.foldl (fun d e => d.insert e.1 e.2) empty

def find? (d : Dictionary) (key : String) : Option String := Table.find? d.entries key

end Dictionary
end NoteStencil
