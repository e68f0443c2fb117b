import NoteStencil.Buffer

/-! Runs of edits of an open buffer. The lines are those of a plain list that is edited in the same way. The cursor is put inside
the buffer by whoever sets it, but a replacement leaves it where it is: it stays inside exactly as long as no replacement
takes away more lines than stand behind the cursor and come in for them. -/

namespace NoteStencil
namespace Buffer

variable {b : Buffer}

inductive Edit
  | replace (start stop : Nat) (new : List String)
  | setCursor (line : Nat)
  /-- Shows the buffer again; of lines and cursor nothing changes. -/
  | refresh
  deriving DecidableEq, Repr

def edited (b : Buffer) : Edit → Buffer
  | .replace start stop new => b.replace start stop new
  | .setCursor line => b.setCursor line
  | .refresh => b

def editedAll (b : Buffer) (edits : List Edit) : Buffer := edits.foldl edited b

/-- Lines without a cursor, edited in the same way: the end of a range is at most the end of the lines, and its start at most
its end. -/
def Edit.onLines (lines : List String) : Edit → List String
  | .replace start stop new =>
    lines.take (min start (min stop lines.length)) ++ new ++ lines.drop (min stop lines.length)
  | .setCursor _ => lines
  | .refresh => lines

/-- A buffer as it is opened, from lines or from a file. -/
inductive Opened : Buffer → Prop
  | new (lines : List String) : Opened { lines }
  | load {fs : FileSystem} {p : Path} {b : Buffer} (h : load fs p = .ok b) : Opened b

/-- The cursor names a line of the buffer, or the place behind the last. -/
def Inside (b : Buffer) : Prop := b.cursor ≤ b.count

instance (b : Buffer) : Decidable b.Inside := inferInstanceAs (Decidable (_ ≤ _))

/-- How many lines a range takes away. -/
def gone (b : Buffer) (start stop : Nat) : Nat := min stop b.count - start

/-- A replacement that takes away no more lines than stand behind the cursor and come in. -/
def HasRoom (b : Buffer) : Edit → Prop
  | .replace start stop new => b.gone start stop ≤ b.count - b.cursor + new.length
  | .setCursor _ => True
  | .refresh => True

/-- Every edit of a run has room in the buffer that it finds. -/
def Roomy : Buffer → List Edit → Prop
  | _, [] => True
  | b, e :: rest => b.HasRoom e ∧ Roomy (b.edited e) rest

/-! ### One edit -/

theorem Opened.cursor_eq (h : Opened b) : b.cursor = 0 := by
  cases h with
  | new lines => rfl
  | @load fs p b h =>
    unfold Buffer.load at h
    split at h
    · cases htext : fs.textAt p with
      | error failure => rw [htext] at h; cases h
      | ok text => rw [htext] at h; cases h; rfl
    · cases h
      rfl

theorem Opened.inside (h : Opened b) : b.Inside := by
  rw [Inside, h.cursor_eq]
  exact Nat.zero_le _

theorem lines_edited (b : Buffer) (e : Edit) : (b.edited e).lines = e.onLines b.lines := by
  cases e <;> rfl

theorem count_replace (b : Buffer) (start stop : Nat) (new : List String) :
    (b.replace start stop new).count + b.gone start stop = b.count + new.length := by
  simp only [replace, gone, count, List.length_append, List.length_take, List.length_drop]
  omega

theorem inside_setCursor (b : Buffer) (line : Nat) : (b.setCursor line).Inside := Nat.min_le_right _ _

theorem inside_edited_iff (h : b.Inside) (e : Edit) : (b.edited e).Inside ↔ b.HasRoom e := by
  cases e with
  | replace start stop new =>
    have hcount := count_replace b start stop new
    have hcursor : (b.replace start stop new).cursor = b.cursor := rfl
    simp only [Inside, edited, HasRoom, hcursor] at h ⊢
    omega
  | setCursor line =>
    simp only [HasRoom, iff_true]
    exact inside_setCursor b line
  | refresh =>
    simp only [HasRoom, iff_true]
    exact h

/-! ### Runs -/

theorem lines_editedAll (b : Buffer) (edits : List Edit) :
    (b.editedAll edits).lines = edits.foldl Edit.onLines b.lines := by
  induction edits generalizing b with
  | nil => rfl
  | cons e rest ih =>
    rw [editedAll, List.foldl_cons, List.foldl_cons, ← lines_edited]
    exact ih (b.edited e)

theorem roomy_of_inside (edits : List Edit) :
    ∀ b : Buffer, b.Inside → (∀ done, done <+: edits → (b.editedAll done).Inside) → b.Roomy edits := by
  induction edits with
  | nil =>
    intro b _ _
    trivial
  | cons e rest ih =>
    intro b hb h
    have hfirst : (b.edited e).Inside := h [e] (by simp)
    refine ⟨(inside_edited_iff hb e).1 hfirst, ?_⟩
    apply ih _ hfirst
    intro done hdone
    exact h (e :: done) (List.cons_prefix_cons.2 ⟨rfl, hdone⟩)

theorem inside_of_roomy (edits : List Edit) :
    ∀ b : Buffer, b.Inside → b.Roomy edits → (b.editedAll edits).Inside := by
  induction edits with
  | nil =>
    intro b hb _
    exact hb
  | cons e rest ih =>
    rintro b hb ⟨hroom, hrest⟩
    exact ih _ ((inside_edited_iff hb e).2 hroom) hrest

theorem Roomy.done {edits done : List Edit} (h : b.Roomy edits) (hdone : done <+: edits) : b.Roomy done := by
  induction done generalizing b edits with
  | nil => trivial
  | cons e rest ih =>
    obtain ⟨more, rfl⟩ := hdone
    exact ⟨h.1, ih h.2 (List.prefix_append rest more)⟩

/-- After every edit of a run the lines are those of the plain list, and the cursor is inside the buffer after each of them
exactly when each has room. -/
theorem edits_keep_cursor_iff (h : Opened b) (edits : List Edit) :
    (∀ done, done <+: edits → (b.editedAll done).lines = done.foldl Edit.onLines b.lines) ∧
    ((∀ done, done <+: edits → (b.editedAll done).Inside) ↔ b.Roomy edits) := by
  refine ⟨fun done _ => lines_editedAll b done, ?_⟩
  constructor
  · intro hinside
    exact roomy_of_inside edits b h.inside hinside
  · intro hroomy done hdone
    exact inside_of_roomy done b h.inside (hroomy.done hdone)

/-- Lines that are taken away from before the cursor leave it behind the end. -/
theorem shrinking_leaves_cursor :
    let b : Buffer := { lines := ["a", "b"] }
    let run : List Edit := [.setCursor 2, .replace 0 2 []]
    (b.editedAll run).lines = [] ∧ (b.editedAll run).cursor = 2 ∧
      ¬ ∀ done, done <+: run → (b.editedAll done).Inside := by
  intro b run
  obtain ⟨hlines, hinside⟩ := edits_keep_cursor_iff (.new ["a", "b"]) run
  refine ⟨hlines run (List.prefix_refl run), rfl, ?_⟩
  intro h
  have hroom : 2 ≤ 0 := (hinside.1 h).2.1
  omega

end Buffer
end NoteStencil
