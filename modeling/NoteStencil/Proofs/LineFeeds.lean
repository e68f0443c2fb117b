import NoteStencil.Buffer
import NoteStencil.Proofs.TextLines

/-! Lines hold no line feed, wherever they come from, so a file of closed lines reads as those lines again, each without
one carriage return at its end. Texts that are closed so read as the lines that each is cut into at its breaks, as long
as these are line feeds with text behind them. -/

namespace NoteStencil

/-- A line that can stand in a file of lines. -/
def Feedless (line : String) : Prop := '\n' ∉ line.toList

/-- What is read back of a line: a carriage return at its end counts as part of the terminator. -/
def unreturned (line : String) : String := String.ofList (withoutReturn '\r' (line.toList, true))

/-! ### Lines that are cut out -/

theorem not_mem_cutAt {α : Type} [DecidableEq α] {t : α} {xs : List α} {piece : List α × Bool} (h : piece ∈ cutAt t xs) :
    t ∉ piece.1 := by
  induction xs using pieces_induction t with
  | blank => cases h
  | last xs hopen hne =>
    rw [cutAt_open hopen hne, List.mem_singleton] at h
    rw [h]
    exact hopen
  | closed xs rest hclosed ih =>
    rw [cutAt_closed rest hclosed] at h
    rcases List.mem_cons.1 h with rfl | h
    · exact hclosed
    · exact ih h

theorem mem_withoutReturn {piece : List Char × Bool} {c : Char} (h : c ∈ withoutReturn '\r' piece) : c ∈ piece.1 := by
  unfold withoutReturn at h
  split at h
  · exact List.dropLast_subset _ h
  · exact h

theorem feedless_textLines (text : String) : ∀ line ∈ textLines text, Feedless line := by
  intro line hline
  obtain ⟨piece, hpiece, rfl⟩ := List.mem_map.1 hline
  obtain ⟨cut, hcut, rfl⟩ := List.mem_map.1 hpiece
  rw [Feedless, String.toList_ofList]
  exact fun hfeed => not_mem_cutAt hcut (mem_withoutReturn hfeed)

/-- No piece holds what text is cut at. -/
theorem not_mem_breakPieces {ch : Char} (hch : ch = '\r' ∨ ch = '\n') {cs piece : List Char}
    (h : piece ∈ breakPieces cs) : ch ∉ piece := by
  induction cs using breakPieces.induct generalizing piece with
  | case1 =>
    obtain rfl : piece = [] := by simpa [breakPieces] using h
    simp
  | case2 rest ih =>
    rw [breakPieces] at h
    rcases List.mem_cons.1 h with rfl | h
    · simp
    · exact ih h
  | case3 c rest hpair hbreak ih =>
    rw [breakPieces, if_pos hbreak] at h
    · rcases List.mem_cons.1 h with rfl | h
      · simp
      · exact ih h
    · exact hpair
  | case4 c rest hpair hbreak hnil ih =>
    have hne : ch ≠ c := fun he => hbreak (he ▸ hch)
    rw [breakPieces, if_neg hbreak, hnil] at h
    · obtain rfl : piece = [c] := by simpa using h
      simpa using hne
    · exact hpair
  | case5 c rest hpair hbreak first more hrest ih =>
    have hne : ch ≠ c := fun he => hbreak (he ▸ hch)
    rw [breakPieces, if_neg hbreak, hrest] at h
    · rcases List.mem_cons.1 h with rfl | h
      · have hfirst : ch ∉ first := ih (hrest ▸ List.mem_cons_self)
        simp [hfirst, hne]
      · exact ih (hrest ▸ List.mem_cons_of_mem first h)
    · exact hpair

theorem breakPieces_ne_nil (cs : List Char) : breakPieces cs ≠ [] := by
  unfold breakPieces
  split
  · simp
  · simp
  · split
    · simp
    · split <;> simp

/-- Nor does any line that text is split into. -/
theorem not_mem_splitLines {ch : Char} (hch : ch = '\r' ∨ ch = '\n') {text line : String} (h : line ∈ splitLines text) :
    ch ∉ line.toList := by
  obtain ⟨piece, hpiece, rfl⟩ := List.mem_map.1 h
  have hmem : piece ∈ breakPieces text.toList := by
    unfold dropLastBlank at hpiece
    split at hpiece
    · exact List.dropLast_subset _ hpiece
    · exact hpiece
  rw [String.toList_ofList]
  exact not_mem_breakPieces hch hmem

theorem feedless_splitLines (text : String) : ∀ line ∈ splitLines text, Feedless line := by
  intro line hline
  exact not_mem_splitLines (.inr rfl) hline

/-! ### Lines that are written -/

theorem cutLines_closed {α : Type} [DecidableEq α] {feed ret : α} {line : List α} (rest : List α) (h : feed ∉ line) :
    cutLines feed ret (line ++ feed :: rest) = withoutReturn ret (line, true) :: cutLines feed ret rest := by
  rw [cutLines, cutAt_closed rest h]
  rfl

theorem toList_closeLines_cons (line : String) (rest : List String) :
    (closeLines (line :: rest)).toList = line.toList ++ '\n' :: (closeLines rest).toList := by
  rw [closeLines, List.map_cons, String.join_cons, String.toList_append, String.toList_append, List.append_assoc]
  rfl

theorem textLines_closeLines {lines : List String} (h : ∀ line ∈ lines, Feedless line) :
    textLines (closeLines lines) = lines.map unreturned := by
  induction lines with
  | nil => rfl
  | cons line rest ih =>
    have hrest := ih fun l hl => h l (List.mem_cons_of_mem line hl)
    rw [textLines, toList_closeLines_cons, cutLines_closed _ (h line List.mem_cons_self), List.map_cons, List.map_cons,
      ← hrest]
    rfl

theorem joinLines_closed {lines : List String} (h : lines ≠ []) : joinLines lines ++ "\n" = closeLines lines := by
  induction lines with
  | nil => exact absurd rfl h
  | cons line rest ih =>
    rw [closeLines, List.map_cons, String.join_cons]
    by_cases hrest : rest = []
    · rw [hrest, joinLines, String.intercalate_singleton]
      simp
    · have hih : "\n".intercalate rest ++ "\n" = String.join (rest.map (· ++ "\n")) := ih hrest
      rw [joinLines, String.intercalate_cons_of_ne_nil hrest, ← hih, String.append_assoc]

/-! ### Lines that come back -/

/-- A line that a file of lines gives back as it was. -/
structure Whole (line : String) : Prop where
  feedless : Feedless line
  last : line.toList.getLast? ≠ some '\r'

theorem unreturned_eq {line : String} (h : Whole line) : unreturned line = line := by
  simp [unreturned, withoutReturn, h.last]

theorem textLines_whole {lines : List String} (h : ∀ line ∈ lines, Whole line) :
    textLines (closeLines lines) = lines := by
  rw [textLines_closeLines fun line hline => (h line hline).feedless]
  exact (List.map_congr_left fun line hline => unreturned_eq (h line hline)).trans (List.map_id' lines)

theorem whole_textLines {text : String} (h : '\r' ∉ text.toList) : ∀ line ∈ textLines text, Whole line := by
  intro line hline
  refine ⟨feedless_textLines text line hline, fun hlast => ?_⟩
  rw [textLines, cutLines_eq h, List.map_map] at hline
  obtain ⟨piece, hpiece, rfl⟩ := List.mem_map.1 hline
  obtain ⟨before, after, htext, -⟩ := mem_cutAt hpiece
  have hmem : '\r' ∈ piece.1 := by simpa using List.mem_of_getLast? hlast
  exact h (by simp [htext, hmem])

/-! ### Lines that are cut at breaks -/

/-- Text whose only breaks are line feeds, none of them at its end. -/
structure FeedsInside (text : String) : Prop where
  unreturned : '\r' ∉ text.toList
  last : text.toList.getLast? ≠ some '\n'

theorem breakPieces_cons {c : Char} (cs : List Char) (h : c ≠ '\r') :
    breakPieces (c :: cs) = if c = '\n' then [] :: breakPieces cs
      else match breakPieces cs with
        | [] => [[c]]
        | piece :: more => (c :: piece) :: more := by
  rw [breakPieces]
  · by_cases hfeed : c = '\n'
    · exact (if_pos (.inr hfeed)).trans (if_pos hfeed).symm
    · exact (if_neg (not_or.2 ⟨h, hfeed⟩)).trans (if_neg hfeed).symm
  · exact fun rest he => absurd he h

theorem cutAt_closed_breaks {cs : List Char} (rest : List Char) (h : '\r' ∉ cs) :
    cutAt '\n' (cs ++ '\n' :: rest) = (breakPieces cs).map (·, true) ++ cutAt '\n' rest := by
  induction cs with
  | nil => simp [breakPieces, cutAt]
  | cons c more ih =>
    obtain ⟨hc, hmore⟩ : '\r' ≠ c ∧ '\r' ∉ more := by simpa using h
    rw [List.cons_append, cutAt, breakPieces_cons more hc.symm, ih hmore]
    by_cases hfeed : c = '\n'
    · simp [hfeed]
    · rw [if_neg hfeed, if_neg hfeed]
      cases hpieces : breakPieces more with
      | nil => exact absurd hpieces (breakPieces_ne_nil more)
      | cons piece pieces => rfl

theorem breakPieces_last {cs : List Char} (h : '\r' ∉ cs) (hne : cs ≠ []) (hlast : cs.getLast? ≠ some '\n') :
    (breakPieces cs).getLast? ≠ some [] := by
  induction cs with
  | nil => exact absurd rfl hne
  | cons c more ih =>
    obtain ⟨hc, hmore⟩ : '\r' ≠ c ∧ '\r' ∉ more := by simpa using h
    rw [breakPieces_cons more hc.symm]
    by_cases hnil : more = []
    · have hfeed : c ≠ '\n' := by simpa [hnil] using hlast
      simp [hnil, breakPieces, hfeed]
    · have hlast' : more.getLast? ≠ some '\n' := by rwa [List.getLast?_cons_of_ne_nil hnil] at hlast
      have hpieces := ih hmore hnil hlast'
      split
      · rwa [List.getLast?_cons_of_ne_nil (breakPieces_ne_nil more)]
      · cases hbreak : breakPieces more with
        | nil => exact absurd hbreak (breakPieces_ne_nil more)
        | cons piece pieces =>
          rw [hbreak] at hpieces
          cases pieces with
          | nil => simp
          | cons second pieces => simpa using hpieces

theorem splitLines_eq {text : String} (h : FeedsInside text) :
    splitLines text = (breakPieces text.toList).map String.ofList := by
  rw [splitLines, dropLastBlank]
  split
  · next hblank =>
    by_cases hne : text.toList = []
    · simp [hne, breakPieces] at hblank
    · exact absurd hblank.2 (breakPieces_last h.unreturned hne h.last)
  · rfl

theorem breakPieces_of_clear {cs : List Char} (hreturn : '\r' ∉ cs) (hfeed : '\n' ∉ cs) : breakPieces cs = [cs] := by
  induction cs with
  | nil => rfl
  | cons c more ih =>
    obtain ⟨hc, hmore⟩ : '\r' ≠ c ∧ '\r' ∉ more := by simpa using hreturn
    obtain ⟨hc', hmore'⟩ : '\n' ≠ c ∧ '\n' ∉ more := by simpa using hfeed
    rw [breakPieces_cons more hc.symm, if_neg hc'.symm, ih hmore hmore']

/-- Text without breaks is one line. -/
theorem splitLines_of_feedless {text : String} (h : FeedsInside text) (hfeed : Feedless text) :
    splitLines text = [text] := by
  rw [splitLines_eq h, breakPieces_of_clear h.unreturned hfeed]
  simp

theorem flatMap_splitLines {texts : List String} (h : ∀ text ∈ texts, FeedsInside text ∧ Feedless text) :
    texts.flatMap splitLines = texts := by
  induction texts with
  | nil => rfl
  | cons text rest ih =>
    obtain ⟨hinside, hfeedless⟩ := h text List.mem_cons_self
    rw [List.flatMap_cons, splitLines_of_feedless hinside hfeedless, ih fun t ht => h t (List.mem_cons_of_mem text ht)]
    rfl

/-- A file of texts, each with its line feed, has the lines that the texts are cut into. -/
theorem textLines_closeLines_breaks {texts : List String} (h : ∀ text ∈ texts, FeedsInside text) :
    textLines (closeLines texts) = texts.flatMap splitLines := by
  induction texts with
  | nil => rfl
  | cons text rest ih =>
    have hrest := ih fun t ht => h t (List.mem_cons_of_mem text ht)
    have hclear := h text List.mem_cons_self
    have hpieces : ((breakPieces text.toList).map (·, true)).map (withoutReturn '\r') = breakPieces text.toList := by
      rw [List.map_map]
      refine (List.map_congr_left fun piece hpiece => ?_).trans (List.map_id' _)
      have hlast : piece.getLast? ≠ some '\r' := fun hr =>
        not_mem_breakPieces (.inl rfl) hpiece (List.mem_of_getLast? hr)
      simp [withoutReturn, hlast]
    rw [textLines, toList_closeLines_cons, cutLines, cutAt_closed_breaks _ hclear.unreturned, List.map_append, hpieces,
      List.map_append, List.flatMap_cons, splitLines_eq hclear, ← hrest]
    rfl

/-- The text of a buffer is its lines, each with its line feed. -/
theorem Buffer.text_eq (b : Buffer) : b.text = closeLines b.lines := by
  unfold Buffer.text
  split
  · next h => rw [h]; rfl
  · next h => exact joinLines_closed h

end NoteStencil
