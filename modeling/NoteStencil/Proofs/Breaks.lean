import NoteStencil.Proofs.LineFeeds

/-! Texts cut at every kind of break. It does not matter which kind a break was: a text has the lines of the text that has a
line feed for each of its breaks, and these are the lines that give this text when they are joined, but for one line feed
at its end. -/

namespace NoteStencil

/-! ### One kind of break -/

/-- A line feed for each pair of a carriage return and a line feed. -/
def unpaired : List Char → List Char
  | [] => []
  | '\r' :: '\n' :: rest => '\n' :: unpaired rest
  | c :: rest => c :: unpaired rest

/-- A line feed for each pair, and then one for each carriage return that is left. -/
def unified (cs : List Char) : List Char := (unpaired cs).map fun c => if c = '\r' then '\n' else c

theorem unified_pair (rest : List Char) : unified ('\r' :: '\n' :: rest) = '\n' :: unified rest := by
  simp [unified, unpaired]

theorem unified_cons {c : Char} {rest : List Char} (h : ∀ more, c = '\r' → rest = '\n' :: more → False) :
    unified (c :: rest) = (if c = '\r' then '\n' else c) :: unified rest := by
  rw [unified, unpaired, List.map_cons, unified]
  exact h

theorem return_not_mem_unified (cs : List Char) : '\r' ∉ unified cs := by
  intro h
  obtain ⟨c, -, hc⟩ := List.mem_map.1 h
  split at hc
  · cases hc
  · next hne => exact hne hc

/-- Pieces are the same for every kind of break. -/
theorem breakPieces_unified (cs : List Char) : breakPieces (unified cs) = breakPieces cs := by
  induction cs using breakPieces.induct with
  | case1 => rfl
  | case2 rest ih =>
    rw [unified_pair, breakPieces_cons _ (by decide), if_pos rfl, ih, breakPieces]
  | case3 c rest hpair hbreak ih =>
    have hfeed : (if c = '\r' then '\n' else c) = '\n' := by
      rcases hbreak with rfl | rfl
      · rfl
      · rfl
    rw [unified_cons hpair, hfeed, breakPieces_cons _ (by decide), if_pos rfl, ih, breakPieces, if_pos hbreak]
    exact hpair
  | case4 c rest hpair hbreak hnil ih =>
    exact absurd hnil (breakPieces_ne_nil rest)
  | case5 c rest hpair hbreak first more hrest ih =>
    obtain ⟨hreturn, hfeed⟩ := not_or.1 hbreak
    rw [unified_cons hpair, if_neg hreturn, breakPieces_cons _ hreturn, breakPieces_cons _ hreturn, ih]

/-! ### Pieces as lines -/

theorem breakPieces_closed {line : List Char} (rest : List Char) (hreturn : '\r' ∉ line) (hfeed : '\n' ∉ line) :
    breakPieces (line ++ '\n' :: rest) = line :: breakPieces rest := by
  induction line with
  | nil => rw [List.nil_append, breakPieces_cons rest (by decide), if_pos rfl]
  | cons c more ih =>
    obtain ⟨hc, hmore⟩ : '\r' ≠ c ∧ '\r' ∉ more := by simpa using hreturn
    obtain ⟨hc', hmore'⟩ : '\n' ≠ c ∧ '\n' ∉ more := by simpa using hfeed
    rw [List.cons_append, breakPieces_cons _ hc.symm, if_neg hc'.symm, ih hmore hmore']

theorem dropLastBlank_cons {piece : List Char} {pieces : List (List Char)} (hne : pieces ≠ [])
    (hblank : pieces ≠ [[]]) : dropLastBlank (piece :: pieces) = piece :: dropLastBlank pieces := by
  obtain ⟨first, more, rfl⟩ := List.exists_cons_of_ne_nil hne
  unfold dropLastBlank
  cases more with
  | nil =>
    have hfirst : first ≠ [] := fun he => hblank (by rw [he])
    simp [hfirst]
  | cons second more =>
    simp only [List.length_cons, List.getLast?_cons_cons, List.dropLast_cons_cons, Nat.lt_add_left_iff_pos,
      Nat.zero_lt_succ, true_and]
    split
    · rfl
    · rfl

/-- Only the empty text is one blank piece. -/
theorem breakPieces_ne_blank {c : Char} (rest : List Char) (h : c ≠ '\r') : breakPieces (c :: rest) ≠ [[]] := by
  rw [breakPieces_cons rest h]
  by_cases hfeed : c = '\n'
  · rw [if_pos hfeed]
    intro he
    exact breakPieces_ne_nil rest (List.cons.inj he).2
  · rw [if_neg hfeed]
    cases breakPieces rest with
    | nil => simp
    | cons piece more => simp

theorem dropLastBlank_breakPieces {cs : List Char} (hreturn : '\r' ∉ cs) (hne : cs ≠ []) :
    dropLastBlank (breakPieces cs) = (cutAt '\n' cs).map (·.1) := by
  induction cs using pieces_induction '\n' with
  | blank => exact absurd rfl hne
  | last cs hopen _ =>
    rw [breakPieces_of_clear hreturn hopen, cutAt_open hopen hne]
    rfl
  | closed line rest hclosed ih =>
    obtain ⟨hline, hrest⟩ : '\r' ∉ line ∧ '\r' ∉ rest := by simpa using hreturn
    rw [breakPieces_closed rest hline hclosed, cutAt_closed rest hclosed, List.map_cons]
    cases rest with
    | nil => rfl
    | cons c more =>
      have hc : c ≠ '\r' := fun he => hrest (he ▸ List.mem_cons_self)
      rw [dropLastBlank_cons (breakPieces_ne_nil _) (breakPieces_ne_blank more hc), ih hrest (List.cons_ne_nil c more)]

/-- The lines of a text are those that its unified form is cut into; of the empty text it is one. -/
theorem splitLines_eq_cutAt (text : String) :
    splitLines text = if unified text.toList = [] then [""]
      else ((cutAt '\n' (unified text.toList)).map (·.1)).map String.ofList := by
  rw [splitLines, ← breakPieces_unified]
  split
  · next hnil => rw [hnil]; rfl
  · next hne => rw [dropLastBlank_breakPieces (return_not_mem_unified _) hne]

theorem splitLines_ne_nil (text : String) : splitLines text ≠ [] := by
  rw [splitLines_eq_cutAt]
  split
  · simp
  · next hne => simp [cutAt_ne_nil hne]

theorem joinLines_splitLines (text : String) :
    (joinLines (splitLines text)).toList = chomp (unified text.toList) := by
  rw [splitLines_eq_cutAt, ← intercalate_cutAt, joinLines, String.toList_intercalate]
  split
  · next hnil => rw [hnil]; rfl
  · simp [Function.comp_def]

/-- Lines without line feeds can be told from what they give when they are joined, as long as there are some. -/
theorem joinLines_injective {lines lines' : List String} (hne : lines ≠ []) (hne' : lines' ≠ [])
    (h : ∀ line ∈ lines, Feedless line) (h' : ∀ line ∈ lines', Feedless line) (heq : joinLines lines = joinLines lines') :
    lines = lines' := by
  have hcut {ls : List String} (hls : ls ≠ []) (hfeed : ∀ line ∈ ls, Feedless line) :
      (joinLines ls).toList.splitOn '\n' = ls.map String.toList := by
    have hclear : ∀ cs ∈ ls.map String.toList, '\n' ∉ cs := by
      intro cs hcs
      obtain ⟨line, hline, rfl⟩ := List.mem_map.1 hcs
      exact hfeed line hline
    rw [joinLines, String.toList_intercalate]
    exact List.splitOn_intercalate _ hclear (by simpa using hls)
  apply (List.map_inj_right fun _ _ => String.toList_injective).1
  rw [← hcut hne h, ← hcut hne' h', heq]

/-- Texts that differ in the kind of their breaks have the same lines. -/
theorem splitLines_congr {text other : String} (h : unified other.toList = unified text.toList) :
    splitLines other = splitLines text := by
  rw [splitLines_eq_cutAt, splitLines_eq_cutAt, h]

/-- A text is cut into at least one line and none holds a break. The lines are those that, joined by line feeds, give the text
with a line feed for each of its breaks, but for one at its end; so they depend on this text alone, and a text without breaks
is its only line. -/
theorem splitLines_exact (text : String) :
    splitLines text ≠ [] ∧
    (∀ line ∈ splitLines text, '\r' ∉ line.toList ∧ '\n' ∉ line.toList) ∧
    (joinLines (splitLines text)).toList = chomp (unified text.toList) ∧
    (∀ lines : List String, lines ≠ [] → (∀ line ∈ lines, Feedless line) →
      (joinLines lines).toList = chomp (unified text.toList) → lines = splitLines text) ∧
    (∀ other : String, unified other.toList = unified text.toList → splitLines other = splitLines text) ∧
    ('\r' ∉ text.toList → '\n' ∉ text.toList → splitLines text = [text]) := by
  refine ⟨splitLines_ne_nil text, ?_, joinLines_splitLines text, ?_, fun other => splitLines_congr, ?_⟩
  · intro line hline
    exact ⟨not_mem_splitLines (.inl rfl) hline, not_mem_splitLines (.inr rfl) hline⟩
  · intro lines hne hfeedless hjoined
    apply joinLines_injective hne (splitLines_ne_nil text) hfeedless (feedless_splitLines text)
    exact String.toList_injective (hjoined.trans (joinLines_splitLines text).symm)
  · intro hreturn hfeed
    have hlast : text.toList.getLast? ≠ some '\n' := fun h => hfeed (List.mem_of_getLast? h)
    exact splitLines_of_feedless ⟨hreturn, hlast⟩ hfeed

/-- Of two carriage returns before a line feed the first is a break of its own, and of two breaks at the end one opens a line. -/
theorem splitLines_mixed :
    splitLines "a\r\r\nb\n\r" = ["a", "", "b", ""] ∧ splitLines "a\n\nb\r\n\n" = ["a", "", "b", ""] ∧
      splitLines "ab" = ["ab"] := by
  obtain ⟨-, -, -, hlines, hother, -⟩ := splitLines_exact "a\r\r\nb\n\r"
  have hmixed := hlines ["a", "", "b", ""] (by decide) (by simp [Feedless]) (by decide)
  refine ⟨hmixed.symm, (hother _ (by decide)).trans hmixed.symm, ?_⟩
  exact (splitLines_exact "ab").2.2.2.2.2 (by decide) (by decide)

end NoteStencil
