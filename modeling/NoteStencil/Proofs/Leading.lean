import NoteStencil.Frontmatter

/-! Which documents split, and into what. A source splits exactly when it refuses no line and its lines divide: the
first is no delimiter, or the block that it opens runs to the next delimiter. Lines divide in one way only. -/

namespace NoteStencil

inductive Divides : List String → Split → Prop
  | plain {lines : List String} (first : lines.head? ≠ some delimiter) : Divides lines { body := lines }
  | block {interior body : List String} (clear : delimiter ∉ interior) :
      Divides (delimiter :: interior ++ delimiter :: body)
        { block := delimiter :: interior ++ [delimiter], body, hasBlock := true }

theorem isDelimiter_iff {line : String} : isDelimiter line = true ↔ line = delimiter := by
  simp [isDelimiter]

theorem isDelimiter_delimiter : isDelimiter delimiter = true := isDelimiter_iff.2 rfl

theorem isDelimiter_of_ne {line : String} (h : line ≠ delimiter) : isDelimiter line = false := by
  simp [isDelimiter, h]

theorem eq_ok_of_toOption {x : Except ε α} {a : α} (h : x.toOption = some a) : x = .ok a := by
  cases x with
  | error failure => cases h
  | ok b => rw [Option.some.inj h]

theorem pair_eq_ok {x : Except ε α × β} {a : α} (h : x.1.toOption = some a) : x = (.ok a, x.2) :=
  Prod.ext (eq_ok_of_toOption h) rfl

theorem eq_ok_getD {x : Except ε α} (a : α) (h : x.toOption.isSome = true) : x = .ok (x.toOption.getD a) := by
  cases x with
  | error failure => cases h
  | ok b => rfl

theorem map_eq_ok {x : Except ε α} {f : α → β} {b : β} (h : x.map f = .ok b) :
    ∃ a, x = .ok a ∧ f a = b := by
  cases x with
  | error e => cases h
  | ok a => cases h; exact ⟨a, rfl, rfl⟩

/-! ### Blocks -/

/-- Lines that do not close the block only come before what is found behind them. -/
theorem takeBlock_append (origin : Path) (source : LineSource) {interior : List String} (n : Nat)
    (h : delimiter ∉ interior) :
    LineCursor.takeBlock origin (interior.map .ok ++ source) n =
      ((LineCursor.takeBlock origin source (n + interior.length)).1.map (interior ++ ·),
        (LineCursor.takeBlock origin source (n + interior.length)).2) := by
  induction interior generalizing n with
  | nil =>
    cases hsource : LineCursor.takeBlock origin source n with
    | mk result c => cases result <;> simp [hsource, Except.map]
  | cons line more ih =>
    have hline : line ≠ delimiter := fun he => h (by simp [he])
    have hmore : delimiter ∉ more := fun hm => h (List.mem_cons_of_mem _ hm)
    have hcount : n + (line :: more).length = n + 1 + more.length := by rw [List.length_cons, Nat.add_right_comm]; rfl
    rw [hcount]
    simp only [List.map_cons, List.cons_append, LineCursor.takeBlock, isDelimiter_of_ne hline, ih (n + 1) hmore,
      Bool.false_eq_true, if_false]
    cases (LineCursor.takeBlock origin source (n + 1 + more.length)).1 <;> rfl

theorem takeBlock_clear (origin : Path) (rest : LineSource) {interior : List String} (n : Nat) (h : delimiter ∉ interior) :
    LineCursor.takeBlock origin (interior.map .ok ++ .ok delimiter :: rest) n =
      (.ok (interior ++ [delimiter]), ⟨rest, origin, n + interior.length + 1⟩) := by
  simp [takeBlock_append origin _ n h, LineCursor.takeBlock, isDelimiter_delimiter, Except.map]

theorem takeBlock_stopped (origin : Path) (fault : Fault) (rest : LineSource) {interior : List String} (n : Nat)
    (h : delimiter ∉ interior) :
    LineCursor.takeBlock origin (interior.map .ok ++ .error fault :: rest) n =
      (.error (.unreadable origin fault), ⟨rest, origin, n + interior.length⟩) := by
  rw [takeBlock_append origin _ n h]
  rfl

theorem takeBlock_unclosed (origin : Path) {interior : List String} (n : Nat) (h : delimiter ∉ interior) :
    LineCursor.takeBlock origin (interior.map .ok) n =
      (.error (.unclosedFrontmatter origin), ⟨[], origin, n + interior.length⟩) := by
  rw [← List.append_nil (interior.map Except.ok), takeBlock_append origin _ n h]
  rfl

theorem takeBlock_eq_ok {origin : Path} {source : LineSource} {n : Nat} {block : List String} {c : LineCursor}
    (h : LineCursor.takeBlock origin source n = (.ok block, c)) :
    ∃ interior, block = interior ++ [delimiter] ∧ delimiter ∉ interior ∧
      source = interior.map .ok ++ .ok delimiter :: c.rest := by
  induction source generalizing n block with
  | nil => cases h
  | cons item rest ih =>
    cases item with
    | error fault => cases h
    | ok line =>
      unfold LineCursor.takeBlock at h
      split at h
      · next hd =>
        cases h
        exact ⟨[], by simp [isDelimiter_iff.1 hd]⟩
      · next hd =>
        cases hr : LineCursor.takeBlock origin rest (n + 1) with
        | mk result c' =>
          rw [hr] at h
          cases result with
          | error failure => cases h
          | ok block' =>
            cases h
            obtain ⟨interior, rfl, hclear, rfl⟩ := ih hr
            have hline : delimiter ≠ line := fun he => hd (isDelimiter_iff.2 he.symm)
            exact ⟨line :: interior, rfl, by simp [hline, hclear], rfl⟩

/-! ### Whole sources -/

/-- A source holds lines only, or lines before its first refusal. -/
theorem source_cases (source : LineSource) :
    (∃ lines : List String, source = lines.map .ok) ∨
      ∃ (lines : List String) (fault : Fault) (rest : LineSource), source = lines.map .ok ++ .error fault :: rest := by
  induction source with
  | nil => exact .inl ⟨[], rfl⟩
  | cons item more ih =>
    cases item with
    | error fault => exact .inr ⟨[], fault, more, rfl⟩
    | ok line =>
      rcases ih with ⟨lines, rfl⟩ | ⟨lines, fault, rest, rfl⟩
      · exact .inl ⟨line :: lines, rfl⟩
      · exact .inr ⟨line :: lines, fault, rest, rfl⟩

theorem error_not_mem_map_ok {fault : Fault} {lines : List String} :
    (.error fault : Except Fault String) ∉ lines.map .ok := by
  simp

/-- A loop over the lines goes on until the source ends, or stops at a refusal. -/
theorem remaining_eq_item (c : LineCursor) :
    c.remaining = match c.item with
      | (none, _) => .ok []
      | (some (.error failure), _) => .error failure
      | (some (.ok line), c') => c'.remaining.map (line :: ·) := by
  obtain ⟨source, origin, n⟩ := c
  match source with
  | [] => rfl
  | .error fault :: rest => rfl
  | .ok line :: rest =>
    simp only [LineCursor.remaining, LineCursor.item, LineCursor.next, List.mapM_cons]
    rfl

theorem remaining_stopped (origin : Path) (fault : Fault) (rest : LineSource) (lines : List String) (n : Nat) :
    LineCursor.remaining ⟨lines.map .ok ++ .error fault :: rest, origin, n⟩ = .error (.unreadable origin fault) := by
  induction lines generalizing n with
  | nil => rfl
  | cons line more ih =>
    rw [remaining_eq_item]
    simp only [List.map_cons, List.cons_append, LineCursor.item, LineCursor.next, ih (n + 1)]
    rfl

theorem mapM_eq_ok_iff {f : Except Fault String → Except Failure String}
    (hf : ∀ item line, f item = .ok line ↔ item = .ok line) {source : LineSource} {lines : List String} :
    source.mapM f = .ok lines ↔ source = lines.map .ok := by
  induction source generalizing lines with
  | nil => cases lines <;> simp [pure, Except.pure]
  | cons item rest ih =>
    rw [List.mapM_cons]
    cases lines with
    | nil => cases f item <;> cases rest.mapM f <;> simp [bind, Except.bind, pure, Except.pure]
    | cons l ls =>
      rw [List.map_cons, List.cons.injEq, ← hf item l, ← ih]
      cases f item <;> cases rest.mapM f <;> simp [bind, Except.bind, pure, Except.pure]

theorem remaining_eq_ok_iff {c : LineCursor} {lines : List String} :
    c.remaining = .ok lines ↔ c.rest = lines.map .ok :=
  mapM_eq_ok_iff fun item line => by cases item <;> simp

theorem takeLeading_block {source : LineSource} {origin : Path} {n : Nat} {block : List String} {c : LineCursor}
    (h : LineCursor.takeLeading ⟨source, origin, n⟩ = (.ok (.block block), c)) :
    ∃ interior, block = delimiter :: interior ++ [delimiter] ∧ delimiter ∉ interior ∧
      source = .ok delimiter :: interior.map .ok ++ .ok delimiter :: c.rest := by
  unfold LineCursor.takeLeading LineCursor.next at h
  match source with
  | [] => cases h
  | .error fault :: rest => cases h
  | .ok first :: rest =>
    simp only at h
    split at h
    · next hd =>
      cases hb : LineCursor.takeBlock origin rest (n + 1) with
      | mk result c' =>
        rw [hb] at h
        cases result with
        | error failure => cases h
        | ok block' =>
          cases h
          obtain ⟨interior, rfl, hclear, rfl⟩ := takeBlock_eq_ok hb
          rw [isDelimiter_iff.1 hd]
          exact ⟨interior, rfl, hclear, rfl⟩
    · cases h

theorem takeLeading_body {source : LineSource} {origin : Path} {n : Nat} {first : Option String} {c : LineCursor}
    (h : LineCursor.takeLeading ⟨source, origin, n⟩ = (.ok (.body first), c)) :
    first ≠ some delimiter ∧ source = first.toList.map .ok ++ c.rest ∧ (first = none → c.rest = []) := by
  unfold LineCursor.takeLeading LineCursor.next at h
  match source with
  | [] => cases h; simp
  | .error fault :: rest => cases h
  | .ok line :: rest =>
    simp only at h
    split at h
    · cases hb : LineCursor.takeBlock origin rest (n + 1) with
      | mk result c' =>
        rw [hb] at h
        cases result <;> cases h
    · next hd =>
      cases h
      exact ⟨fun he => hd (isDelimiter_iff.2 (Option.some.inj he)), rfl, nofun⟩

theorem split_eq_ok_iff {c : LineCursor} {s : Split} :
    c.split = .ok s ↔ ∃ lines, c.rest = lines.map .ok ∧ Divides lines s := by
  obtain ⟨source, origin, n⟩ := c
  constructor
  · intro h
    unfold LineCursor.split at h
    cases hl : LineCursor.takeLeading ⟨source, origin, n⟩ with
    | mk result c' =>
      rw [hl] at h
      cases result with
      | error failure => cases h
      | ok leading =>
        cases leading with
        | block block =>
          obtain ⟨body, hbody, rfl⟩ := map_eq_ok h
          obtain ⟨interior, rfl, hclear, rfl⟩ := takeLeading_block hl
          refine ⟨delimiter :: interior ++ delimiter :: body, ?_, .block hclear⟩
          simp [remaining_eq_ok_iff.1 hbody]
        | body first =>
          obtain ⟨body, hbody, rfl⟩ := map_eq_ok h
          obtain ⟨hfirst, rfl, hnone⟩ := takeLeading_body hl
          refine ⟨first.toList ++ body, by simp [remaining_eq_ok_iff.1 hbody], .plain ?_⟩
          cases first with
          | none =>
            have : body = [] := by simpa [hnone rfl] using remaining_eq_ok_iff.1 hbody
            simp [this]
          | some line => simpa using hfirst
  · rintro ⟨lines, hlines, hd⟩
    simp only at hlines
    subst hlines
    cases hd with
    | plain hfirst =>
      cases lines with
      | nil => rfl
      | cons line rest =>
        have hline : line ≠ delimiter := fun he => hfirst (by simp [he])
        have hrest : LineCursor.remaining ⟨rest.map .ok, origin, n + 1⟩ = .ok rest := remaining_eq_ok_iff.2 rfl
        simp [LineCursor.split, LineCursor.takeLeading, LineCursor.next, isDelimiter_of_ne hline, hrest, Except.map]
    | @block interior body hclear =>
      have hblock := takeBlock_clear origin (body.map .ok) (n + 1) hclear
      have hbody (k : Nat) : LineCursor.remaining ⟨body.map .ok, origin, k⟩ = .ok body := remaining_eq_ok_iff.2 rfl
      simp [LineCursor.split, LineCursor.takeLeading, LineCursor.next, isDelimiter_delimiter, hblock, hbody,
        Except.map]

/-- The origin is only for failures. -/
theorem split_ofLines_iff {lines : List String} {origin : Path} {s : Split} :
    (LineCursor.ofLines lines origin).split = .ok s ↔ Divides lines s := by
  rw [split_eq_ok_iff]
  constructor
  · rintro ⟨lines', hl, hd⟩
    have : lines = lines' := (List.map_inj_right fun _ _ => Except.ok.inj).1 hl
    exact this ▸ hd
  · exact fun hd => ⟨lines, rfl, hd⟩

theorem Divides.unique {lines : List String} {s t : Split} (hs : Divides lines s) (ht : Divides lines t) : s = t := by
  have h : (LineCursor.ofLines lines ⟨""⟩).split = .ok s := split_ofLines_iff.2 hs
  rw [split_ofLines_iff.2 ht] at h
  exact (Except.ok.inj h).symm

theorem Divides.lines_eq {lines : List String} {s : Split} (h : Divides lines s) : lines = s.block ++ s.body := by
  cases h <;> simp

theorem Divides.closingLine_eq {interior body : List String} :
    Split.closingLine ⟨delimiter :: interior ++ [delimiter], body, true⟩ = some (interior.length + 1) := by
  simp [Split.closingLine]

end NoteStencil
