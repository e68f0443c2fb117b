import NoteStencil.Proofs.Leading

/-! What splitting makes of every source: a refusal anywhere in it is what it ends with, a first line that is no delimiter
leaves all lines to the body, and a first line that is one has its block close at the next, or never. -/

namespace NoteStencil

/-- The first delimiter behind the first line. -/
structure ClosesFirst (lines : List String) (k : Nat) : Prop where
  behind : 1 ≤ k
  there : lines[k]? = some delimiter
  least : ∀ j, 1 ≤ j → lines[j]? = some delimiter → k ≤ j

/-- No line belongs to a block. -/
structure Uncut (lines : List String) (s : Split) : Prop where
  block : s.block = []
  body : s.body = lines
  hasBlock : s.hasBlock = false
  closing : s.closingLine = none

/-- All lines up to this one are the block, and all behind it the body. -/
structure CutBehind (lines : List String) (k : Nat) (s : Split) : Prop where
  block : s.block = lines.take (k + 1)
  interior : s.interior = (lines.take k).drop 1
  clear : delimiter ∉ s.interior
  body : s.body = lines.drop (k + 1)
  hasBlock : s.hasBlock = true
  closing : s.closingLine = some k

/-! ### Lines that open a block -/

theorem ClosesFirst.unique {lines : List String} {j k : Nat} (hj : ClosesFirst lines j) (hk : ClosesFirst lines k) :
    j = k :=
  Nat.le_antisymm (hj.least k hk.behind hk.there) (hk.least j hj.behind hj.there)

theorem closesFirst_block {interior : List String} (body : List String) (h : delimiter ∉ interior) :
    ClosesFirst (delimiter :: interior ++ delimiter :: body) (interior.length + 1) := by
  refine ⟨Nat.le_add_left 1 _, by simp, fun j hj hthere => ?_⟩
  obtain ⟨i, rfl⟩ : ∃ i, j = i + 1 := ⟨j - 1, (Nat.sub_add_cancel hj).symm⟩
  rw [List.cons_append, List.getElem?_cons_succ] at hthere
  refine Nat.succ_le_succ (Nat.le_of_not_lt fun hlt => ?_)
  rw [List.getElem?_append_left hlt] at hthere
  exact h (List.mem_of_getElem? hthere)

theorem cutBehind_block {interior body : List String} (h : delimiter ∉ interior) :
    CutBehind (delimiter :: interior ++ delimiter :: body) (interior.length + 1)
      { block := delimiter :: interior ++ [delimiter], body, hasBlock := true } := by
  have hinterior : Split.interior ⟨delimiter :: interior ++ [delimiter], body, true⟩ = interior := by
    simp [Split.interior]
  refine ⟨?_, ?_, ?_, ?_, rfl, Divides.closingLine_eq⟩
  · simp [List.take_append, List.take_of_length_le]
  · rw [hinterior]
    simp
  · rwa [hinterior]
  · simp [List.drop_append]

/-- Lines behind an opening delimiter hold the one that closes the block, or none. -/
theorem opened_cases {lines : List String} (h : lines.head? = some delimiter) :
    (∃ interior body, delimiter ∉ interior ∧ lines = delimiter :: interior ++ delimiter :: body) ∨
      ∃ interior, delimiter ∉ interior ∧ lines = delimiter :: interior := by
  obtain ⟨tail, rfl⟩ := List.head?_eq_some_iff.1 h
  by_cases hmem : delimiter ∈ tail
  · obtain ⟨interior, body, rfl, hclear⟩ := List.eq_append_cons_of_mem hmem
    exact .inl ⟨interior, body, hclear, rfl⟩
  · exact .inr ⟨tail, hmem, rfl⟩

/-! ### Splits that fail -/

theorem split_unclosed (origin : Path) {interior : List String} (n : Nat) (h : delimiter ∉ interior) :
    LineCursor.split ⟨(delimiter :: interior).map .ok, origin, n⟩ = .error (.unclosedFrontmatter origin) := by
  simp only [LineCursor.split, LineCursor.takeLeading, LineCursor.next, List.map_cons, isDelimiter_delimiter, if_true,
    takeBlock_unclosed origin (n + 1) h]

/-- A refusal is met while the block is taken, or in the body behind it. -/
theorem split_stopped (origin : Path) (fault : Fault) (rest : LineSource) (lines : List String) (n : Nat) :
    LineCursor.split ⟨lines.map .ok ++ .error fault :: rest, origin, n⟩ = .error (.unreadable origin fault) := by
  cases lines with
  | nil => rfl
  | cons first more =>
    by_cases hfirst : first = delimiter
    · subst hfirst
      have hopened : (delimiter :: more).head? = some delimiter := rfl
      rcases opened_cases hopened with ⟨interior, body, hclear, heq⟩ | ⟨interior, hclear, heq⟩
      · obtain rfl : more = interior ++ delimiter :: body := (List.cons.inj heq).2
        have hblock := takeBlock_clear origin (body.map .ok ++ .error fault :: rest) (n + 1) hclear
        simp [LineCursor.split, LineCursor.takeLeading, LineCursor.next, isDelimiter_delimiter, hblock,
          remaining_stopped, Except.map]
      · obtain rfl : more = interior := (List.cons.inj heq).2
        simp [LineCursor.split, LineCursor.takeLeading, LineCursor.next, isDelimiter_delimiter,
          takeBlock_stopped origin fault rest (n + 1) hclear]
    · simp [LineCursor.split, LineCursor.takeLeading, LineCursor.next, isDelimiter_of_ne hfirst, remaining_stopped,
        Except.map]

/-- Without a refusal a split gives its parts, or finds the block open at the end. -/
theorem split_readable {c : LineCursor} {lines : List String} (h : c.rest = lines.map .ok) :
    (∃ s, c.split = .ok s) ∨ c.split = .error (.unclosedFrontmatter c.origin) := by
  obtain ⟨source, origin, n⟩ := c
  subst h
  by_cases hfirst : lines.head? = some delimiter
  · rcases opened_cases hfirst with ⟨interior, body, hclear, rfl⟩ | ⟨interior, hclear, rfl⟩
    · exact .inl ⟨_, split_eq_ok_iff.2 ⟨_, rfl, .block hclear⟩⟩
    · exact .inr (split_unclosed origin n hclear)
  · exact .inl ⟨_, split_eq_ok_iff.2 ⟨_, rfl, .plain hfirst⟩⟩

theorem split_unreadable_iff {c : LineCursor} :
    (∃ path fault, c.split = .error (.unreadable path fault)) ↔ ∃ fault, .error fault ∈ c.rest := by
  obtain ⟨source, origin, n⟩ := c
  constructor
  · rintro ⟨path, fault, h⟩
    rcases source_cases source with ⟨lines, rfl⟩ | ⟨lines, fault, rest, rfl⟩
    · rcases split_readable (c := ⟨lines.map .ok, origin, n⟩) rfl with ⟨s, hs⟩ | hunclosed
      · rw [hs] at h
        cases h
      · rw [hunclosed] at h
        cases h
    · exact ⟨fault, by simp⟩
  · rintro ⟨fault, h⟩
    rcases source_cases source with ⟨lines, rfl⟩ | ⟨lines, fault, rest, rfl⟩
    · exact absurd h error_not_mem_map_ok
    · exact ⟨origin, fault, split_stopped origin fault rest lines n⟩

/-- A split reads every line: the first refusal is what it ends with. Lines that can all be read are left to the body when
the first is no delimiter, are cut behind the next delimiter when it is one, and else are an open block. -/
theorem LineCursor.split_partitions (c : LineCursor) :
    ((∃ path fault, c.split = .error (.unreadable path fault)) ↔ ∃ fault, .error fault ∈ c.rest) ∧
    (∀ (lines : List String) fault rest, c.rest = lines.map .ok ++ .error fault :: rest →
      c.split = .error (.unreadable c.origin fault)) ∧
    (∀ lines : List String, c.rest = lines.map .ok →
      (lines.head? ≠ some delimiter → ∃ s, c.split = .ok s ∧ Uncut lines s) ∧
      (lines.head? = some delimiter → ∀ k, ClosesFirst lines k → ∃ s, c.split = .ok s ∧ CutBehind lines k s) ∧
      (lines.head? = some delimiter → (∀ k, ¬ ClosesFirst lines k) →
        c.split = .error (.unclosedFrontmatter c.origin))) ∧
    ∀ s, c.split = .ok s → c.rest = (s.block ++ s.body).map .ok := by
  refine ⟨split_unreadable_iff, ?_, ?_, ?_⟩
  · obtain ⟨source, origin, n⟩ := c
    rintro lines fault rest rfl
    exact split_stopped origin fault rest lines n
  · intro lines hlines
    refine ⟨fun hfirst => ?_, fun hfirst k hk => ?_, fun hfirst hnone => ?_⟩
    · exact ⟨_, split_eq_ok_iff.2 ⟨lines, hlines, .plain hfirst⟩, rfl, rfl, rfl, rfl⟩
    · rcases opened_cases hfirst with ⟨interior, body, hclear, rfl⟩ | ⟨interior, hclear, rfl⟩
      · obtain rfl := hk.unique (closesFirst_block body hclear)
        exact ⟨_, split_eq_ok_iff.2 ⟨_, hlines, .block hclear⟩, cutBehind_block hclear⟩
      · obtain ⟨i, rfl⟩ : ∃ i, k = i + 1 := ⟨k - 1, (Nat.sub_add_cancel hk.behind).symm⟩
        have hthere := hk.there
        rw [List.getElem?_cons_succ] at hthere
        exact absurd (List.mem_of_getElem? hthere) hclear
    · rcases opened_cases hfirst with ⟨interior, body, hclear, rfl⟩ | ⟨interior, hclear, rfl⟩
      · exact absurd (closesFirst_block body hclear) (hnone _)
      · obtain ⟨source, origin, n⟩ := c
        subst hlines
        exact split_unclosed origin n hclear
  · intro s hs
    obtain ⟨lines, hlines, hdivides⟩ := split_eq_ok_iff.1 hs
    rw [hlines, hdivides.lines_eq]

/-- A rule in the body closes nothing. -/
theorem LineCursor.split_leaves_rule :
    let lines := ["---", "a: 1", "---", "text", "---"]
    ∃ s, (LineCursor.ofLines lines ⟨"d.md"⟩).split = .ok s ∧ CutBehind lines 2 s := by
  intro lines
  obtain ⟨-, -, hreadable, -⟩ := LineCursor.split_partitions (LineCursor.ofLines lines ⟨"d.md"⟩)
  exact (hreadable lines rfl).2.1 rfl 2 (@closesFirst_block ["a: 1"] ["text", "---"] (by decide))

end NoteStencil
