import NoteStencil.Proofs.Asking
import NoteStencil.Proofs.LineFeeds

/-! Lines expanded one after the other, and all of them at once. Scanning the joined lines finds the tokens of each line and
nothing else, unless it finds a token that goes on over the end of a line. So where no token does, both ways put in the
same, leave the same context and ask the same. -/

namespace NoteStencil

/-! ### Scanning over the end of a line -/

theorem tokenName?_append {xs name : List Char} (ys : List Char) (h : tokenName? xs = some name) :
    tokenName? (xs ++ ys) = some name := by
  obtain ⟨hne, hclear, rest, rfl⟩ := tokenName?_eq_some_iff.1 h
  exact tokenName?_eq_some_iff.2 ⟨hne, hclear, rest ++ ys, by simp⟩

/-- A token without line feed that starts before a line feed also ends before it. -/
theorem tokenName?_of_append {xs ys name : List Char} (h : tokenName? (xs ++ '\n' :: ys) = some name) (hname : '\n' ∉ name) :
    tokenName? xs = some name := by
  obtain ⟨hne, hclear, rest, heq⟩ := tokenName?_eq_some_iff.1 h
  have hwhole : xs ++ '\n' :: ys = ('{' :: '{' :: name ++ ['}', '}']) ++ rest := by simpa using heq
  rcases List.append_eq_append_iff.1 hwhole with ⟨more, htoken, hrest⟩ | ⟨more, hxs, -⟩
  · cases more with
    | nil => exact tokenName?_eq_some_iff.2 ⟨hne, hclear, [], by simpa using htoken.symm⟩
    | cons c more =>
      -- the line feed would stand in the token
      have hfeed : '\n' ∈ '{' :: '{' :: name ++ ['}', '}'] := by
        rw [htoken, ← (List.cons.inj hrest).1]
        simp
      simp [hname] at hfeed
  · exact tokenName?_eq_some_iff.2 ⟨hne, hclear, more, by simpa using hxs⟩

/-- The name of a token that was found is followed by its closing braces. -/
theorem tokenName?_length {c : Char} {rest name : List Char} (h : tokenName? (c :: rest) = some name) :
    name.length + 3 ≤ rest.length := by
  obtain ⟨-, -, more, heq⟩ := tokenName?_eq_some_iff.1 h
  rw [(List.cons.inj heq).2]
  simp

/-- Where no token goes on over a line feed, what stands before it and behind it is scanned on its own. -/
theorem scan_append_feed {xs ys : List Char} (h : ∀ raw, .token raw ∈ scan (xs ++ '\n' :: ys) → Feedless raw) :
    scan (xs ++ '\n' :: ys) = scan xs ++ .text '\n' :: scan ys := by
  induction hn : xs.length using Nat.strongRecOn generalizing xs with
  | ind n ih =>
    cases xs with
    | nil =>
      have hnone : tokenName? ('\n' :: ys) = none := by simp [tokenName?]
      simp [scan, hnone]
    | cons c rest =>
      rw [List.length_cons] at hn
      rw [List.cons_append, scan] at h ⊢
      cases hname : tokenName? (c :: (rest ++ '\n' :: ys)) with
      | none =>
        have hfirst : tokenName? (c :: rest) = none := by
          cases hfound : tokenName? (c :: rest) with
          | none => rfl
          | some name =>
            rw [← List.cons_append, tokenName?_append _ hfound] at hname
            cases hname
        rw [hname] at h
        have hrest := ih rest.length (by omega) (fun raw hraw => h raw (List.mem_cons_of_mem _ hraw)) rfl
        simp only [hrest, scan, hfirst, List.cons_append]
      | some name =>
        rw [hname] at h
        have hfeedless : '\n' ∉ name := by simpa [Feedless] using h _ List.mem_cons_self
        have hfirst : tokenName? (c :: rest) = some name := tokenName?_of_append hname hfeedless
        have hlength := tokenName?_length hfirst
        simp only [List.drop_append_of_le_length hlength] at h ⊢
        have hrest := ih (rest.drop (name.length + 3)).length (by simp; omega)
          (fun raw hraw => h raw (List.mem_cons_of_mem _ hraw)) rfl
        rw [hrest, scan, hfirst]
        rfl

variable {σ : Type}

/-! ### Expanding over the end of a line -/

theorem expandPieces_append (p : Prompter σ) (xs ys : List Piece) (c : Context) (s : σ) :
    expandPieces p (xs ++ ys) c s =
      ((expandPieces p xs c s).1 ++ (expandPieces p ys (expandPieces p xs c s).2.1 (expandPieces p xs c s).2.2).1,
        (expandPieces p ys (expandPieces p xs c s).2.1 (expandPieces p xs c s).2.2).2) := by
  induction xs generalizing c s with
  | nil => rfl
  | cons piece rest ih =>
    cases piece with
    | text ch => simp only [List.cons_append, expandPieces, ih]
    | token raw => simp only [List.cons_append, expandPieces, ih, List.append_assoc]

theorem scan_feed {line text : String} (h : ∀ raw ∈ rawNames (line ++ "\n" ++ text), Feedless raw) :
    scan (line ++ "\n" ++ text).toList = scan line.toList ++ .text '\n' :: scan text.toList := by
  have hchars : (line ++ "\n" ++ text).toList = line.toList ++ '\n' :: text.toList := by simp
  rw [rawNames, hchars] at h
  rw [hchars]
  exact scan_append_feed fun raw hraw => h raw (List.mem_filterMap.2 ⟨_, hraw, rfl⟩)

theorem rawNames_feed {line text : String} (h : ∀ raw ∈ rawNames (line ++ "\n" ++ text), Feedless raw) :
    rawNames (line ++ "\n" ++ text) = rawNames line ++ rawNames text := by
  rw [rawNames, scan_feed h, List.filterMap_append]
  rfl

/-- A line and the text behind its line feed are expanded one after the other. -/
theorem expand_feed {line text : String} (p : Prompter σ) (c : Context) (s : σ)
    (h : ∀ raw ∈ rawNames (line ++ "\n" ++ text), Feedless raw) :
    expand p (line ++ "\n" ++ text) c s =
      ((expand p line c s).1 ++ "\n" ++ (expand p text (expand p line c s).2.1 (expand p line c s).2.2).1,
        (expand p text (expand p line c s).2.1 (expand p line c s).2.2).2) := by
  simp only [expand, scan_feed h, expandPieces_append, expandPieces]
  refine Prod.ext (String.toList_injective ?_) rfl
  simp

theorem expand_joined (p : Prompter σ) (lines : List String) (c : Context) (s : σ)
    (h : ∀ raw ∈ rawNames (joinLines lines), Feedless raw) :
    expand p (joinLines lines) c s = (joinLines (expandLines p lines c s).1, (expandLines p lines c s).2) := by
  induction lines generalizing c s with
  | nil => simp [joinLines, expandLines, expand, scan, expandPieces]
  | cons line rest ih =>
    by_cases hrest : rest = []
    · simp [hrest, joinLines, expandLines]
    · have hjoined : joinLines (line :: rest) = line ++ "\n" ++ joinLines rest :=
        String.intercalate_cons_of_ne_nil hrest
      rw [hjoined] at h ⊢
      have hnames : ∀ raw ∈ rawNames (joinLines rest), Feedless raw := fun raw hraw =>
        h raw (by rw [rawNames_feed h]; exact List.mem_append_right _ hraw)
      have houts : (expandLines p rest (expand p line c s).2.1 (expand p line c s).2.2).1 ≠ [] := fun hnil => by
        have hlength := expandLines_length p rest (expand p line c s).2.1 (expand p line c s).2.2
        rw [hnil] at hlength
        exact hrest (List.length_eq_zero_iff.1 hlength.symm)
      rw [expand_feed p c s h, ih _ _ hnames, expandLines]
      simp only [joinLines, String.intercalate_cons_of_ne_nil houts]

/-- Lines are expanded one by one to what the joined lines are expanded to, with the same context behind them, the same
answers and the same questions, as long as no token of the joined lines holds a line feed. -/
theorem expand_joinLines (p : Prompter σ) (lines : List String) (c : Context) (s : σ)
    (h : ∀ raw ∈ rawNames (joinLines lines), Feedless raw) :
    expand p (joinLines lines) c s = (joinLines (expandLines p lines c s).1, (expandLines p lines c s).2) ∧
      (expand p.noted (joinLines lines) c (s, [])).2.2 = (expandLines p.noted lines c (s, [])).2.2 := by
  refine ⟨expand_joined p lines c s h, ?_⟩
  rw [expand_joined p.noted lines c (s, []) h]

/-- Braces that are still open at the end of a line, and closing ones at the start of another, come to no token. -/
theorem expand_joinLines_open :
    let p : Prompter Nat := ⟨fun _ n => (some (toString n), n + 1)⟩
    let lines := ["\x7b\x7ba", "b\x7d \x7b\x7bc\x7d\x7d", "\x7d\x7d \x7b\x7b c \x7d\x7d\x7b\x7bd\x7d\x7d"]
    (∀ raw ∈ rawNames (joinLines lines), Feedless raw) ∧
      joinLines (expandLines p lines {} 0).1 = "\x7b\x7ba\nb\x7d 0\n\x7d\x7d 01" ∧
      expand p (joinLines lines) {} 0 = (joinLines (expandLines p lines {} 0).1, (expandLines p lines {} 0).2) := by
  intro p lines
  have h : ∀ raw ∈ rawNames (joinLines lines), Feedless raw := by
    unfold Feedless
    decide +kernel
  exact ⟨h, by decide +kernel, (expand_joinLines p lines {} 0 h).1⟩

end NoteStencil
