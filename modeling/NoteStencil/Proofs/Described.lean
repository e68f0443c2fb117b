import NoteStencil.Proofs.Insertion
import NoteStencil.Proofs.WrittenLines

/-! Runs of insertions into one buffer with one note. The note describes the buffer when it says where the buffer's
block closes. A merge makes it do so again whatever was there; a body alone keeps it so exactly when the block's
closing line is still the first delimiter behind line zero, for which there is a condition on the point and the body.
-/

namespace NoteStencil

def Buffer.split (b : Buffer) : Except Failure Split := (LineCursor.ofLines b.lines Note.noOrigin).split

theorem Buffer.split_eq_ok_iff {b : Buffer} {s : Split} : b.split = .ok s ↔ Divides b.lines s := split_ofLines_iff

/-- The note knows whether the buffer has a block, and where it closes. -/
def Describes (n : Note) (b : Buffer) : Prop :=
  ∃ s, b.split = .ok s ∧ s.hasBlock = n.hasFrontmatter ∧ s.closingLine = n.closingLine

theorem Buffer.slice_all (b : Buffer) : b.slice 0 b.count = b.lines := by
  simp [Buffer.slice, Buffer.count]

theorem describes_of_ofBuffer {b : Buffer} {path : Option Path} {n : Note} (h : Note.ofBuffer b path = .ok n) :
    Describes n b := by
  rw [Note.ofBuffer, Buffer.slice_all] at h
  obtain ⟨s, m, hd, -, rfl⟩ := Note.ofLines_eq_ok_iff.1 h
  refine ⟨s, Buffer.split_eq_ok_iff.2 hd, ?_, ?_⟩
  · rw [Note.ofSplit_eq]
  · rw [Note.ofSplit_eq]

/-! ### Where a block closes -/

def ClosesAt (lines : List String) (last : Nat) : Prop :=
  lines.head? = some delimiter ∧ delimiter ∈ lines.tail ∧ lines.tail.idxOf delimiter + 1 = last

theorem idxOf_append_delimiter (xs ys : List String) : (xs ++ delimiter :: ys).idxOf delimiter = xs.idxOf delimiter := by
  rw [List.idxOf_append]
  split
  · rfl
  · next h => rw [List.idxOf_cons_self, Nat.zero_add, List.idxOf_eq_length h]

theorem closesAt_block {interior : List String} (body : List String) (h : delimiter ∉ interior) :
    ClosesAt (delimiter :: interior ++ delimiter :: body) (interior.length + 1) := by
  refine ⟨rfl, by simp, ?_⟩
  rw [List.cons_append, List.tail_cons, idxOf_append_delimiter, List.idxOf_eq_length h]

theorem ClosesAt.divides {lines : List String} {last : Nat} (h : ClosesAt lines last) :
    ∃ s, Divides lines s ∧ s.hasBlock = true ∧ s.closingLine = some last := by
  obtain ⟨hhead, hmem, hlast⟩ := h
  obtain ⟨tail, rfl⟩ := List.head?_eq_some_iff.1 hhead
  obtain ⟨interior, body, heq, hclear⟩ := List.eq_append_cons_of_mem hmem
  rw [List.tail_cons] at heq hlast
  rw [heq] at hlast ⊢
  rw [idxOf_append_delimiter, List.idxOf_eq_length hclear] at hlast
  exact ⟨_, .block hclear, rfl, by rw [Divides.closingLine_eq, hlast]⟩

theorem ClosesAt.lt {lines : List String} {last : Nat} (h : ClosesAt lines last) : last < lines.length := by
  obtain ⟨hhead, hmem, hlast⟩ := h
  have hlt := List.idxOf_lt_length_of_mem hmem
  rw [List.length_tail] at hlt
  omega

theorem describes_iff {n : Note} {b : Buffer} :
    Describes n b ↔
      (n.hasFrontmatter = false ∧ n.closingLine = none ∧ b.lines.head? ≠ some delimiter) ∨
        ∃ last, n.hasFrontmatter = true ∧ n.closingLine = some last ∧ ClosesAt b.lines last := by
  constructor
  · rintro ⟨s, hs, hflag, hclosing⟩
    obtain ⟨lines, cursor⟩ := b
    have hd := Buffer.split_eq_ok_iff.1 hs
    simp only at hd
    cases hd with
    | plain hfirst => exact .inl ⟨hflag.symm, hclosing.symm, hfirst⟩
    | @block interior body hclear =>
      rw [Divides.closingLine_eq] at hclosing
      exact .inr ⟨_, hflag.symm, hclosing.symm, closesAt_block body hclear⟩
  · rintro (⟨hflag, hclosing, hfirst⟩ | ⟨last, hflag, hclosing, hcloses⟩)
    · exact ⟨_, Buffer.split_eq_ok_iff.2 (.plain hfirst), hflag.symm, hclosing.symm⟩
    · obtain ⟨s, hd, hb, hlast⟩ := hcloses.divides
      exact ⟨s, Buffer.split_eq_ok_iff.2 hd, hb.trans hflag.symm, hlast.trans hclosing.symm⟩

/-! ### Lines put among others -/

/-- A body put at a point leaves the block where it is: it stands behind the block, or there is none and it opens
none, or its own first delimiter takes the place of the one that closed the block. -/
def Fits : Option Nat → Nat → List String → Prop
  | none, point, body => 0 < point ∨ body.head? ≠ some delimiter
  | some last, point, body =>
    last < point ∨ body = [] ∨
      if point = 0 then body.head? = some delimiter ∧ body.tail.idxOf delimiter + 1 = last
      else delimiter ∈ body ∧ point + body.idxOf delimiter = last

instance (closing : Option Nat) (point : Nat) (body : List String) : Decidable (Fits closing point body) := by
  cases closing <;> exact inferInstanceAs (Decidable (_ ∨ _))

theorem head_put_iff {lines body : List String} {point : Nat} (hpoint : point ≤ lines.length)
    (h : lines.head? ≠ some delimiter) :
    (lines.take point ++ body ++ lines.drop point).head? ≠ some delimiter ↔ Fits none point body := by
  cases point with
  | zero =>
    cases body with
    | nil => simpa [Fits] using h
    | cons line rest => simp [Fits]
  | succ point =>
    cases lines with
    | nil => cases hpoint
    | cons first rest => simpa [Fits] using h

theorem closesAt_put_iff {lines body : List String} {point last : Nat} (h : ClosesAt lines last) :
    ClosesAt (lines.take point ++ body ++ lines.drop point) last ↔ Fits (some last) point body := by
  obtain ⟨hhead, hmem, hlast⟩ := h
  obtain ⟨tail, rfl⟩ := List.head?_eq_some_iff.1 hhead
  rw [List.tail_cons] at hmem hlast
  cases point with
  | zero =>
    cases body with
    | nil => simp [ClosesAt, Fits, hmem, hlast]
    | cons line rest =>
      simp [ClosesAt, Fits, idxOf_append_delimiter]
  | succ p =>
    have hsplit : (tail.take p ++ tail.drop p).idxOf delimiter + 1 = last := by rw [List.take_append_drop, hlast]
    have hmem' : delimiter ∈ tail.take p ++ tail.drop p := by rwa [List.take_append_drop]
    simp only [ClosesAt, Fits, List.take_succ_cons, List.drop_succ_cons, List.cons_append, List.head?_cons,
      List.tail_cons, true_and, Nat.succ_ne_zero, if_false]
    rw [List.idxOf_append] at hsplit
    rw [List.idxOf_append, List.idxOf_append]
    by_cases hbefore : delimiter ∈ tail.take p
    · -- the closing line stands before the point, and stays
      have hlt := List.idxOf_lt_length_of_mem hbefore
      have hlen := List.length_take_le p tail
      rw [if_pos hbefore] at hsplit
      simp only [List.mem_append, hbefore, true_or, if_true, hsplit, true_and]
      exact ⟨fun _ => .inl (by omega), fun _ => trivial⟩
    · rw [if_neg hbefore] at hsplit
      have hbehind : delimiter ∈ tail.drop p := (List.mem_append.1 hmem').resolve_left hbefore
      have hlen : (tail.take p).length = p := by
        rw [List.length_take]
        have := List.length_pos_of_mem hbehind
        rw [List.length_drop] at this
        omega
      rw [hlen] at hsplit ⊢
      by_cases hbody : delimiter ∈ body
      · have hne : body ≠ [] := List.ne_nil_of_mem hbody
        simp only [List.mem_append, hbefore, hbody, or_true, true_or, if_true, if_false, hne, false_or, true_and,
          List.length_append, hlen]
        omega
      · simp only [List.mem_append, hbefore, hbody, hbehind, or_true, or_false, if_false, false_and, true_and,
          List.length_append, hlen]
        rw [← List.length_eq_zero_iff]
        omega

theorem sublist_put (lines body : List String) (point : Nat) :
    lines.Sublist (lines.take point ++ body ++ lines.drop point) := by
  have h := (List.sublist_append_left (lines.take point) body).append_right (lines.drop point)
  rwa [List.take_append_drop] at h

theorem body_sublist_put {lines body : List String} {point n : Nat} (hn : n ≤ point) (hpoint : point ≤ lines.length) :
    body.Sublist ((lines.take point ++ body ++ lines.drop point).drop n) := by
  have htake : n ≤ (lines.take point).length := by
    rw [List.length_take]
    omega
  rw [List.append_assoc, List.drop_append_of_le_length htake]
  exact (List.sublist_append_left body _).trans (List.sublist_append_right _ _)

namespace Engine

variable {σ : Type}

/-- The lines behind the note's block. -/
def Desk.body (d : Desk σ) : List String := d.buffer.lines.drop (blockLength d.target d.buffer)

theorem blockLength_of_describes {n : Note} {b : Buffer} {s : Split} (hs : b.split = .ok s)
    (hflag : s.hasBlock = n.hasFrontmatter) (hclosing : s.closingLine = n.closingLine) :
    blockLength n b = s.block.length := by
  rw [blockLength_eq, ← hflag, ← hclosing, Buffer.count]
  have hd := Buffer.split_eq_ok_iff.1 hs
  generalize b.lines = lines at hd
  cases hd with
  | plain _ => rfl
  | block _ => simp [Split.closingLine]

theorem body_eq_of_describes {d : Desk σ} {s : Split} (hs : d.buffer.split = .ok s)
    (hflag : s.hasBlock = d.target.hasFrontmatter) (hclosing : s.closingLine = d.target.closingLine) :
    d.body = s.body := by
  rw [Desk.body, blockLength_of_describes hs hflag hclosing, (Buffer.split_eq_ok_iff.1 hs).lines_eq, List.drop_left]

/-! ### One insertion -/

/-- An insertion that succeeded, with the desk before it and after. -/
structure Entry (σ : Type) where
  before : Desk σ
  ins : Insertion
  after : Desk σ

namespace Entry

/-- The lines of the template's body that now stand in the buffer. -/
def inserted (e : Entry σ) : List String := e.after.buffer.slice e.ins.start e.ins.stop

/-- A body alone went where it leaves the block in its place. -/
def Fits (e : Entry σ) : Prop := NoteStencil.Fits e.before.target.closingLine e.ins.start e.inserted

/-- The point was behind the block, if there was one. -/
def Behind (e : Entry σ) : Prop := ∀ last, e.before.target.closingLine = some last → last < e.ins.start

/-- The block that the buffer had is gone, the note's present one stands in its place, and every line behind it is
still there with the inserted ones among them. -/
def Replaces (e : Entry σ) : Prop :=
  ∃ s block q, e.before.buffer.split = .ok s ∧ e.after.target.blockLines = .ok block ∧
    e.after.buffer.lines = block ++ s.body.take q ++ e.inserted ++ s.body.drop q

/-- A body without block, at its point among the lines, and the note as before. -/
structure Alone (e : Entry σ) : Prop where
  unmerged : e.ins.merged = false
  inside : e.ins.start ≤ e.before.buffer.count
  lines : e.after.buffer.lines =
    e.before.buffer.lines.take e.ins.start ++ e.inserted ++ e.before.buffer.lines.drop e.ins.start
  target : e.after.target = e.before.target

/-- The note's new block, and behind it the old body with the inserted lines. -/
structure Over (e : Entry σ) (block : List String) (q : Nat) : Prop where
  merged : e.ins.merged = true
  written : e.after.target.blockLines = .ok block
  lines : e.after.buffer.lines = block ++ e.before.body.take q ++ e.inserted ++ e.before.body.drop q
  flag : e.after.target.hasFrontmatter = true
  closing : e.after.target.closingLine = some (block.length - 1)

def Lands (e : Entry σ) : Prop := e.Alone ∨ ∃ block q, e.Over block q

end Entry

theorem Entry.inserted_eq {e : Entry σ} {xs body ys : List String} {merged : Bool} {start : Nat}
    (hlines : e.after.buffer.lines = xs ++ body ++ ys) (hins : e.ins = ⟨merged, start, start + body.length⟩)
    (hlength : xs.length = start) : e.inserted = body := by
  subst hlength
  rw [inserted, hins]
  exact Buffer.slice_eq hlines

theorem LandsPlain.inserted_eq {d d' : Desk σ} {ins : Insertion} {point : Nat} {body : List String}
    (h : LandsPlain d d' ins point body) (hpoint : point ≤ d.buffer.count) : Entry.inserted ⟨d, ins, d'⟩ = body := by
  refine Entry.inserted_eq h.lines h.range ?_
  rw [List.length_take]
  exact Nat.min_eq_left hpoint

theorem LandsMerged.inserted_eq {d d' : Desk σ} {ins : Insertion} {t : Note} {at_ : Nat} {block body : List String}
    (h : LandsMerged d d' ins t (blockLength d.target d.buffer)
      (max (min at_ d.buffer.count) (blockLength d.target d.buffer) - blockLength d.target d.buffer) block body) :
    Entry.inserted ⟨d, ins, d'⟩ = body := by
  refine Entry.inserted_eq h.lines h.range ?_
  have hold := blockLength_le d.target d.buffer
  unfold Buffer.count at hold ⊢
  rw [List.length_append, List.length_take, List.length_drop]
  omega

theorem lands {e : Engine} {p : Prompter σ} {reference : String} {at_ : Nat} {d d' : Desk σ} {w : World σ}
    {ins : Insertion} (h : e.insert p reference at_ { d with world := w } = (.ok ins, d')) :
    Entry.Lands ⟨d, ins, d'⟩ := by
  obtain ⟨path, lines, -, -, -, hland⟩ := lands_of_insert h
  have hinside : min at_ d.buffer.count ≤ d.buffer.count := Nat.min_le_right _ _
  rcases hland with ⟨-, hland⟩ | ⟨interior, rest, t, block, -, -, -, hland⟩
  · have hbody : Entry.inserted ⟨d, ins, d'⟩ = _ := hland.inserted_eq hinside
    have hlines := hland.lines
    rw [← hbody] at hlines
    refine .inl ⟨?_, ?_, ?_, hland.target⟩
    · simp only [hland.range]
    · simpa only [hland.range] using hinside
    · simpa only [hland.range] using hlines
  · have hbody : Entry.inserted ⟨d, ins, d'⟩ = _ := hland.inserted_eq
    have hlines := hland.lines
    rw [← hbody] at hlines
    refine .inr ⟨block, _, ?_, hland.written, hlines, ?_, ?_⟩
    · simp only [hland.range]
    · rw [hland.target]
    · rw [hland.target]

/-! ### Blocks that are written -/

theorem blockLines_eq_ok {n : Note} {block : List String} (h : n.blockLines = .ok block) :
    ∃ interior, block = delimiter :: interior ++ [delimiter] ∧ delimiter ∉ interior := by
  obtain ⟨interior, hinterior, rfl⟩ := map_eq_ok h
  exact ⟨interior, rfl, Note.delimiter_not_mem_metadataLines hinterior⟩

/-! ### What one insertion preserves -/

/-- Lines added to a buffer do not change how long the note takes its block to be. -/
theorem blockLength_grown {n : Note} {b b' : Buffer} (h : Describes n b) (hcount : b.count ≤ b'.count) :
    blockLength n b' = blockLength n b := by
  rw [blockLength_eq, blockLength_eq]
  rcases describes_iff.1 h with ⟨hflag, -, -⟩ | ⟨last, hflag, hclosing, hcloses⟩
  · rw [hflag]
  · have hlt := hcloses.lt
    unfold Buffer.count at *
    rw [hflag, hclosing]
    simp only
    omega

namespace Entry

variable {e : Entry σ} {block : List String} {q : Nat}

/-- A merge does not depend on what the note said before. -/
theorem Over.describes (h : e.Over block q) : Describes e.after.target e.after.buffer := by
  obtain ⟨interior, rfl, hclear⟩ := blockLines_eq_ok h.written
  have hcloses := closesAt_block (e.before.body.take q ++ e.inserted ++ e.before.body.drop q) hclear
  rw [describes_iff]
  refine .inr ⟨_, h.flag, h.closing, ?_⟩
  rw [h.lines]
  simpa using hcloses

theorem Over.body_eq (h : e.Over block q) :
    e.after.body = e.before.body.take q ++ e.inserted ++ e.before.body.drop q := by
  have hlength : blockLength e.after.target e.after.buffer = block.length := by
    obtain ⟨interior, rfl, -⟩ := blockLines_eq_ok h.written
    rw [blockLength_eq, h.flag, h.closing, Buffer.count, h.lines]
    simp only [List.length_append, List.length_cons]
    omega
  rw [Desk.body, hlength, h.lines, List.append_assoc, List.append_assoc, List.drop_left, List.append_assoc]

theorem Over.replaces (h : e.Over block q) (hd : Describes e.before.target e.before.buffer) : e.Replaces := by
  obtain ⟨s, hs, hflag, hclosing⟩ := hd
  have hlines := h.lines
  rw [body_eq_of_describes hs hflag hclosing] at hlines
  exact ⟨s, block, q, hs, h.written, hlines⟩

theorem Alone.not_merged (h : e.Alone) : ¬ e.ins.merged = true := by
  rw [h.unmerged]
  exact Bool.false_ne_true

theorem Alone.describes_iff_fits (h : e.Alone) (hd : Describes e.before.target e.before.buffer) :
    Describes e.after.target e.after.buffer ↔ e.Fits := by
  unfold Fits
  rcases describes_iff.1 hd with ⟨hflag, hclosing, hfirst⟩ | ⟨last, hflag, hclosing, hcloses⟩
  · rw [hclosing, ← head_put_iff h.inside hfirst, describes_iff, h.target, h.lines]
    simp [hflag, hclosing]
  · rw [hclosing, ← closesAt_put_iff hcloses, describes_iff, h.target, h.lines]
    simp [hflag, hclosing]

theorem Alone.body_eq (h : e.Alone) (hd : Describes e.before.target e.before.buffer) :
    e.after.body = e.after.buffer.lines.drop (blockLength e.before.target e.before.buffer) := by
  have hsub := sublist_put e.before.buffer.lines e.inserted e.ins.start
  rw [← h.lines] at hsub
  rw [Desk.body, h.target, blockLength_grown hd hsub.length_le]

/-- Each line behind the block stays, whatever is put in and wherever. -/
theorem Lands.body_sublist (h : e.Lands) (hd : Describes e.before.target e.before.buffer) :
    e.before.body.Sublist e.after.body := by
  rcases h with h | ⟨block, q, h⟩
  · rw [h.body_eq hd, h.lines]
    exact (sublist_put _ _ _).drop _
  · rw [h.body_eq]
    exact sublist_put _ _ _

theorem Behind.blockLength_le (h : e.Behind) : blockLength e.before.target e.before.buffer ≤ e.ins.start := by
  rw [blockLength_eq]
  split
  · next last _ hclosing =>
    have := h last hclosing
    omega
  · exact Nat.zero_le _

theorem Lands.inserted_sublist (h : e.Lands) (hd : Describes e.before.target e.before.buffer)
    (hplace : e.ins.merged = true ∨ e.Behind) : e.inserted.Sublist e.after.body := by
  rcases h with h | ⟨block, q, h⟩
  · have hbehind : e.Behind := hplace.resolve_left h.not_merged
    rw [h.body_eq hd, h.lines]
    exact body_sublist_put hbehind.blockLength_le h.inside
  · rw [h.body_eq]
    exact (List.sublist_append_right _ _).trans (List.sublist_append_left _ _)

end Entry

/-! ### Runs -/

/-- Insertions that succeed, one after the other: each by an engine of its own, with other files and other answers. -/
inductive Run (d₀ : Desk σ) : List (Entry σ) → Desk σ → Prop
  | start : Run d₀ [] d₀
  | step {h : List (Entry σ)} {d d' : Desk σ} {ins : Insertion} (run : Run d₀ h d) (e : Engine) (p : Prompter σ)
      (reference : String) (at_ : Nat) (w : World σ)
      (inserts : e.insert p reference at_ { d with world := w } = (.ok ins, d')) :
      Run d₀ (h ++ [⟨d, ins, d'⟩]) d'

variable {d₀ d : Desk σ} {h : List (Entry σ)}

theorem Run.describes_of_fits (hrun : Run d₀ h d) (h₀ : Describes d₀.target d₀.buffer)
    (hk : ∀ e ∈ h, e.ins.merged = true ∨ e.Fits) :
    Describes d.target d.buffer ∧
      ∀ e ∈ h, Describes e.before.target e.before.buffer ∧ Describes e.after.target e.after.buffer := by
  induction hrun with
  | start => exact ⟨h₀, by simp⟩
  | @step h d d' ins run e p reference at_ w inserts ih =>
    obtain ⟨hd, hall⟩ := ih fun e he => hk e (List.mem_append_left _ he)
    have hlast : Describes d'.target d'.buffer := by
      rcases lands inserts with hland | ⟨block, q, hland⟩
      · have hfits := (hk ⟨d, ins, d'⟩ (by simp)).resolve_left hland.not_merged
        exact (hland.describes_iff_fits hd).2 hfits
      · exact hland.describes
    refine ⟨hlast, fun e he => ?_⟩
    rcases List.mem_append.1 he with he | he
    · exact hall e he
    · rw [List.mem_singleton.1 he]
      exact ⟨hd, hlast⟩

theorem Run.fits_of_describes (hrun : Run d₀ h d) (h₀ : Describes d₀.target d₀.buffer)
    (hall : ∀ e ∈ h, Describes e.after.target e.after.buffer) :
    Describes d.target d.buffer ∧ ∀ e ∈ h, e.ins.merged = true ∨ e.Fits := by
  induction hrun with
  | start => exact ⟨h₀, by simp⟩
  | @step h d d' ins run e p reference at_ w inserts ih =>
    obtain ⟨hd, hk⟩ := ih fun e he => hall e (List.mem_append_left _ he)
    have hlast : Describes d'.target d'.buffer := hall ⟨d, ins, d'⟩ (by simp)
    refine ⟨hlast, fun e he => ?_⟩
    rcases List.mem_append.1 he with he | he
    · exact hk e he
    · rw [List.mem_singleton.1 he]
      rcases lands inserts with hland | ⟨block, q, hland⟩
      · exact .inr ((hland.describes_iff_fits hd).1 hlast)
      · exact .inl hland.merged

theorem Run.body_sublist (hrun : Run d₀ h d) (hd : ∀ e ∈ h, Describes e.before.target e.before.buffer) :
    d₀.body.Sublist d.body ∧ ∀ e ∈ h, e.ins.merged = true ∨ e.Behind → e.inserted.Sublist d.body := by
  induction hrun with
  | start => exact ⟨List.Sublist.refl _, by simp⟩
  | @step h d d' ins run e p reference at_ w inserts ih =>
    obtain ⟨hbody, hins⟩ := ih fun e he => hd e (List.mem_append_left _ he)
    have hland := lands inserts
    have hbefore := hd ⟨d, ins, d'⟩ (by simp)
    have hstep : d.body.Sublist d'.body := hland.body_sublist hbefore
    refine ⟨hbody.trans hstep, fun e he hplace => ?_⟩
    rcases List.mem_append.1 he with he | he
    · exact (hins e he hplace).trans hstep
    · rw [List.mem_singleton.1 he] at hplace ⊢
      exact hland.inserted_sublist hbefore hplace

theorem Run.replaces (hrun : Run d₀ h d) (hd : ∀ e ∈ h, Describes e.before.target e.before.buffer) :
    ∀ e ∈ h, e.ins.merged = true → e.Replaces := by
  induction hrun with
  | start => simp
  | @step h d d' ins run e p reference at_ w inserts ih =>
    intro e he hm
    rcases List.mem_append.1 he with he | he
    · exact ih (fun e he => hd e (List.mem_append_left _ he)) e he hm
    · have hbefore := hd e (by simp [List.mem_singleton.1 he])
      rw [List.mem_singleton.1 he] at hm hbefore ⊢
      rcases lands inserts with hland | ⟨block, q, hland⟩
      · exact absurd hm hland.not_merged
      · exact hland.replaces hbefore

/-- After each insertion of a run the note describes the buffer exactly when each body that came alone fitted. Then
every merge replaced the block that it found, and no line is lost that stood behind the block or was put there. -/
theorem run_describes_iff {path : Option Path} (hstart : Note.ofBuffer d₀.buffer path = .ok d₀.target)
    (hrun : Run d₀ h d) :
    ((∀ e ∈ h, Describes e.after.target e.after.buffer) ↔ ∀ e ∈ h, e.ins.merged = true ∨ e.Fits) ∧
      ((∀ e ∈ h, e.ins.merged = true ∨ e.Fits) →
        Describes d.target d.buffer ∧
        (∀ e ∈ h, e.ins.merged = true → e.Replaces) ∧
        ∃ s₀ s, d₀.buffer.split = .ok s₀ ∧ d.buffer.split = .ok s ∧ s₀.body.Sublist s.body ∧
          ∀ e ∈ h, e.ins.merged = true ∨ e.Behind → e.inserted.Sublist s.body) := by
  have h₀ := describes_of_ofBuffer hstart
  refine ⟨⟨fun hall => (hrun.fits_of_describes h₀ hall).2, fun hk e he => ?_⟩, fun hk => ?_⟩
  · exact ((hrun.describes_of_fits h₀ hk).2 e he).2
  · obtain ⟨hd, hall⟩ := hrun.describes_of_fits h₀ hk
    obtain ⟨s₀, hs₀, hflag₀, hclosing₀⟩ := h₀
    obtain ⟨s, hs, hflag, hclosing⟩ := hd
    obtain ⟨hbody, hinserted⟩ := hrun.body_sublist fun e he => (hall e he).1
    rw [body_eq_of_describes hs hflag hclosing] at hbody hinserted
    rw [body_eq_of_describes hs₀ hflag₀ hclosing₀] at hbody
    exact ⟨⟨s, hs, hflag, hclosing⟩, hrun.replaces fun e he => (hall e he).1, s₀, s, hs₀, hs, hbody, hinserted⟩

instance (e : Entry σ) : Decidable e.Fits := inferInstanceAs (Decidable (NoteStencil.Fits _ _ _))

/-- A body without block, put behind the first line of a block: the note then names a line of the block as its end. -/
theorem insert_into_block_undescribes :
    ∃ d d' : Desk Unit, d.buffer.lines = ["---", "a: 1", "---", "body"] ∧
      Note.ofBuffer d.buffer none = .ok d.target ∧ Run d [⟨d, ⟨false, 1, 2⟩, d'⟩] d' ∧
      d'.buffer.lines = ["---", "new line", "a: 1", "---", "body"] ∧ d'.target.closingLine = some 2 ∧
      ¬ Describes d'.target d'.buffer := by
  have hruns : ∃ (n : Note) (d d' : Desk Unit), d.buffer = { lines := ["---", "a: 1", "---", "body"] } ∧
      d.target = n ∧ Note.ofBuffer { lines := ["---", "a: 1", "---", "body"] } none = .ok n ∧
      sampleEngine.insert (.silent Unit) "x" 1 d = (.ok ⟨false, 1, 2⟩, d') ∧
      d'.buffer.lines = ["---", "new line", "a: 1", "---", "body"] ∧ d'.target.closingLine = some 2 ∧
      ¬ Entry.Fits ⟨d, ⟨false, 1, 2⟩, d'⟩ :=
    ⟨_, sampleDesk "new line\n" _ ["---", "a: 1", "---", "body"], _, rfl, rfl, eq_ok_getD {} (by decide +kernel),
      pair_eq_ok (by decide +kernel), by decide +kernel, by decide +kernel, by decide +kernel⟩
  obtain ⟨n, d, d', hbuffer, htarget, hread, hinsert, hlines, hclosing, hfits⟩ := hruns
  have hstart : Note.ofBuffer d.buffer none = .ok d.target := by rw [hbuffer, htarget, hread]
  have hrun : Run d [⟨d, ⟨false, 1, 2⟩, d'⟩] d' := .step .start sampleEngine (.silent Unit) "x" 1 d.world hinsert
  refine ⟨d, d', by rw [hbuffer], hstart, hrun, hlines, hclosing, fun hdescribes => ?_⟩
  have hkeeps := (run_describes_iff hstart hrun).1.1 (by simpa using hdescribes)
  rcases hkeeps _ (List.mem_singleton.2 rfl) with hm | hf
  · cases hm
  · exact hfits hf

end Engine
end NoteStencil
