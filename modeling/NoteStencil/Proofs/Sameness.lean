import NoteStencil.Proofs.NoteFields

/-! Sameness of values as it decides on keys. Mappings are the same in any order, so sameness is not equality, and where a
mapping has a key twice it need not even go both ways. Values that are read have no such mapping: from them it does, and
two values that are the same as a third are the same. -/

namespace NoteStencil

theorem Binary64.same_iff {x y : Binary64} : x.same y = true ↔ x = y ∨ x.isZero = true ∧ y.isZero = true := by
  simp [same]

namespace Yaml

namespace Number

theorem same_self (n : Number) : n.same n = true := by
  cases n with
  | int m => simp [same]
  | float x => exact Binary64.same_iff.2 (.inl rfl)

theorem same_symm {m n : Number} (h : m.same n = true) : n.same m = true := by
  match m, n with
  | int a, int b =>
    have heq : a = b := by simpa [same] using h
    simp [same, heq]
  | float x, float y => exact Binary64.same_iff.2 ((Binary64.same_iff.1 h).imp Eq.symm And.symm)

theorem same_trans {l m n : Number} (h : l.same m = true) (h' : m.same n = true) : l.same n = true := by
  match l, m, n with
  | int a, int b, int c => simp_all [same]
  | float x, float y, float z =>
    apply Binary64.same_iff.2
    rcases Binary64.same_iff.1 h with rfl | ⟨hx, hy⟩
    · exact Binary64.same_iff.1 h'
    · rcases Binary64.same_iff.1 h' with rfl | ⟨-, hz⟩
      · exact .inr ⟨hx, hy⟩
      · exact .inr ⟨hx, hz⟩

end Number

namespace Value

/-- No mapping in the value has a key twice. -/
inductive Regular : Value → Prop
  | null : Regular null
  | bool (b : Bool) : Regular (bool b)
  | number (n : Number) : Regular (number n)
  | string (text : String) : Regular (string text)
  | sequence {items : List Value} (items_regular : ∀ v ∈ items, Regular v) : Regular (sequence items)
  | mapping {entries : Mapping} (distinct : Table.Distinct entries) (keys : ∀ e ∈ entries, Regular e.1)
      (values : ∀ e ∈ entries, Regular e.2) : Regular (mapping entries)
  | tagged (tag : String) {v : Value} (value : Regular v) : Regular (tagged tag v)

/-! ### Sameness onward -/

variable {a b c : Value} {xs ys : List Value} {es ds : Mapping}

theorem sameEntries_iff :
    sameEntries es ds = true ↔ ∀ e ∈ es, ∃ d ∈ ds, same e.1 d.1 = true ∧ same e.2 d.2 = true := by
  induction es with
  | nil => simp [sameEntries]
  | cons e rest ih =>
    obtain ⟨k, v⟩ := e
    simp only [sameEntries, sameEntry, Bool.and_eq_true, List.any_eq_true, ih, List.forall_mem_cons]

theorem same_number_iff {m n : Number} : same (number m) (number n) = true ↔ m.same n = true := by
  simp [same]

theorem same_tagged_iff {s t : String} : same (tagged s a) (tagged t b) = true ↔ tagName s = tagName t ∧ same a b = true := by
  simp [same]

/-- The keys `!x a` and `!<!!x> a` are one. -/
example : same (tagged "x" (string "a")) (tagged "!x" (string "a")) = true := by decide +kernel

theorem same_sequence_iff : same (sequence xs) (sequence ys) = true ↔ sameItems xs ys = true := by
  simp [same]

theorem same_mapping_iff :
    same (mapping es) (mapping ds) = true ↔
      es.length = ds.length ∧ ∀ e ∈ es, ∃ d ∈ ds, same e.1 d.1 = true ∧ same e.2 d.2 = true := by
  simp [same, sameEntries_iff]

mutual
theorem same_self : ∀ v : Value, same v v = true
  | null => by simp [same]
  | bool b => by simp [same]
  | number n => same_number_iff.2 n.same_self
  | string s => by simp [same]
  | sequence items => same_sequence_iff.2 (sameItems_self items)
  | mapping entries => same_mapping_iff.2 ⟨rfl, fun e he => ⟨e, he, entries_self entries e he⟩⟩
  | tagged tag v => same_tagged_iff.2 ⟨rfl, same_self v⟩

theorem sameItems_self : ∀ items : List Value, sameItems items items = true
  | [] => by simp [sameItems]
  | v :: rest => by simp [sameItems, same_self v, sameItems_self rest]

theorem entry_self : ∀ e : Value × Value, same e.1 e.1 = true ∧ same e.2 e.2 = true
  | (k, v) => ⟨same_self k, same_self v⟩

theorem entries_self : ∀ (entries : Mapping), ∀ e ∈ entries, same e.1 e.1 = true ∧ same e.2 e.2 = true
  | [] => by simp
  | d :: rest => List.forall_mem_cons.2 ⟨entry_self d, entries_self rest⟩
end

instance : ReflBEq Value := ⟨same_self _⟩

mutual
theorem same_trans : ∀ (a b c : Value), same a b = true → same b c = true → same a c = true
  | null, b, c, h, h' => by cases b <;> simp_all [same]
  | bool _, b, c, h, h' => by cases b <;> simp_all [same]
  | string _, b, c, h, h' => by cases b <;> simp_all [same]
  | number l, b, c, h, h' => by
    cases b with
    | number m =>
      cases c with
      | number n => exact same_number_iff.2 (Number.same_trans (same_number_iff.1 h) (same_number_iff.1 h'))
      | _ => simp [same] at h'
    | _ => simp [same] at h
  | sequence xs, b, c, h, h' => by
    cases b with
    | sequence ys =>
      cases c with
      | sequence zs =>
        exact same_sequence_iff.2 (sameItems_trans xs ys zs (same_sequence_iff.1 h) (same_sequence_iff.1 h'))
      | _ => simp [same] at h'
    | _ => simp [same] at h
  | mapping es, b, c, h, h' => by
    cases b with
    | mapping ds =>
      cases c with
      | mapping fs =>
        obtain ⟨hlength, hall⟩ := same_mapping_iff.1 h
        obtain ⟨hlength', hall'⟩ := same_mapping_iff.1 h'
        refine same_mapping_iff.2 ⟨hlength.trans hlength', fun e he => ?_⟩
        obtain ⟨d, hd, hsame⟩ := hall e he
        obtain ⟨f, hf, hsame'⟩ := hall' d hd
        exact ⟨f, hf, entries_trans es e he d f hsame hsame'⟩
      | _ => simp [same] at h'
    | _ => simp [same] at h
  | tagged tag v, b, c, h, h' => by
    cases b with
    | tagged tag' w =>
      cases c with
      | tagged tag'' x =>
        obtain ⟨htag, hvalue⟩ := same_tagged_iff.1 h
        obtain ⟨htag', hvalue'⟩ := same_tagged_iff.1 h'
        exact same_tagged_iff.2 ⟨htag.trans htag', same_trans v w x hvalue hvalue'⟩
      | _ => simp [same] at h'
    | _ => simp [same] at h

theorem sameItems_trans : ∀ (xs ys zs : List Value),
    sameItems xs ys = true → sameItems ys zs = true → sameItems xs zs = true
  | [], ys, zs, h, h' => by
    cases ys with
    | nil => exact h'
    | cons y ys => simp [sameItems] at h
  | x :: xs, ys, zs, h, h' => by
    match ys, zs with
    | [], _ => simp [sameItems] at h
    | _ :: _, [] => simp [sameItems] at h'
    | y :: ys, z :: zs =>
      simp only [sameItems, Bool.and_eq_true] at h h' ⊢
      exact ⟨same_trans x y z h.1 h'.1, sameItems_trans xs ys zs h.2 h'.2⟩

theorem entry_trans : ∀ e d f : Value × Value, same e.1 d.1 = true ∧ same e.2 d.2 = true →
    same d.1 f.1 = true ∧ same d.2 f.2 = true → same e.1 f.1 = true ∧ same e.2 f.2 = true
  | (k, v), d, f, h, h' => ⟨same_trans k d.1 f.1 h.1 h'.1, same_trans v d.2 f.2 h.2 h'.2⟩

theorem entries_trans : ∀ (es : Mapping), ∀ e ∈ es, ∀ d f : Value × Value,
    same e.1 d.1 = true ∧ same e.2 d.2 = true → same d.1 f.1 = true ∧ same d.2 f.2 = true →
      same e.1 f.1 = true ∧ same e.2 f.2 = true
  | [] => by simp
  | e :: rest => List.forall_mem_cons.2 ⟨entry_trans e, entries_trans rest⟩
end

/-! ### Sameness back -/

theorem sameItems_symm (hback : ∀ x ∈ xs, ∀ y, same x y = true → same y x = true) (h : sameItems xs ys = true) :
    sameItems ys xs = true := by
  induction xs generalizing ys with
  | nil =>
    cases ys with
    | nil => exact h
    | cons y ys => simp [sameItems] at h
  | cons x rest ih =>
    cases ys with
    | nil => simp [sameItems] at h
    | cons y ys =>
      simp only [sameItems, Bool.and_eq_true] at h ⊢
      exact ⟨hback x List.mem_cons_self y h.1, ih (fun z hz => hback z (List.mem_cons_of_mem x hz)) h.2⟩

/-- As many as there are to be matched, and no two matched with one: then each is matched. -/
theorem exists_of_matched {α β : Type} {R : α → β → Prop} {xs : List α} {ys : List β} (hlength : xs.length = ys.length)
    (hall : ∀ x ∈ xs, ∃ y ∈ ys, R x y) (hapart : xs.Pairwise fun x x' => ∀ y, R x y → ¬ R x' y) :
    ∀ y ∈ ys, ∃ x ∈ xs, R x y := by
  induction xs generalizing ys with
  | nil =>
    obtain rfl : ys = [] := List.length_eq_zero_iff.1 hlength.symm
    simp
  | cons x rest ih =>
    obtain ⟨hx, hrest⟩ := List.pairwise_cons.1 hapart
    obtain ⟨y₀, hy₀, hR⟩ := hall x List.mem_cons_self
    obtain ⟨before, behind, rfl⟩ := List.append_of_mem hy₀
    have hothers : ∀ x' ∈ rest, ∃ y ∈ before ++ behind, R x' y := by
      intro x' hx'
      obtain ⟨y, hy, hR'⟩ := hall x' (List.mem_cons_of_mem x hx')
      have hne : y ≠ y₀ := fun he => hx x' hx' y₀ hR (he ▸ hR')
      exact ⟨y, by simpa [hne] using hy, hR'⟩
    have hleft := ih (by simp at hlength ⊢; omega) hothers hrest
    intro y hy
    by_cases he : y = y₀
    · exact ⟨x, List.mem_cons_self, he ▸ hR⟩
    · obtain ⟨x', hx', hR'⟩ := hleft y (by simpa [he] using hy)
      exact ⟨x', List.mem_cons_of_mem x hx', hR'⟩

/-- Two keys of a regular mapping are not the same as one key, so each entry of the other mapping is met. -/
theorem Regular.same_symm (ha : Regular a) (h : same a b = true) : same b a = true := by
  induction ha generalizing b with
  | null | bool | string => cases b <;> simp_all [same]
  | number n =>
    cases b with
    | number m => exact same_number_iff.2 (Number.same_symm (same_number_iff.1 h))
    | _ => simp [same] at h
  | sequence _ ih =>
    cases b with
    | sequence ys => exact same_sequence_iff.2 (sameItems_symm (fun x hx y => ih x hx) (same_sequence_iff.1 h))
    | _ => simp [same] at h
  | @mapping es hdistinct _ _ ihk ihv =>
    cases b with
    | mapping ds =>
      obtain ⟨hlength, hall⟩ := same_mapping_iff.1 h
      have hapart : es.Pairwise fun e e' => ∀ d : Value × Value,
          (same e.1 d.1 = true ∧ same e.2 d.2 = true) → ¬ (same e'.1 d.1 = true ∧ same e'.2 d.2 = true) := by
        refine hdistinct.imp_of_mem fun {e e'} he _ hne d hd hd' => ?_
        have hsame : same e'.1 e.1 = true := same_trans _ _ _ hd'.1 (ihk e he hd.1)
        exact Bool.false_ne_true (hne.symm.trans hsame)
      refine same_mapping_iff.2 ⟨hlength.symm, fun d hd => ?_⟩
      obtain ⟨e, he, hk, hv⟩ := exists_of_matched hlength hall hapart d hd
      exact ⟨e, he, ihk e he hk, ihv e he hv⟩
    | _ => simp [same] at h
  | tagged tag _ ih =>
    cases b with
    | tagged tag' v =>
      obtain ⟨htag, hvalue⟩ := same_tagged_iff.1 h
      exact same_tagged_iff.2 ⟨htag.symm, ih hvalue⟩
    | _ => simp [same] at h

/-! ### Scalars that are read -/

theorem regular_withTag {tag : Option String} (h : Regular a) : Regular (withTag tag a) := by
  unfold withTag
  split
  · exact .tagged _ h
  · exact h

theorem regular_of_plainValue? {text : String} (h : plainValue? text = some a) : Regular a := by
  unfold plainValue? at h
  split at h
  · cases h
    exact .null
  · split at h
    · cases h
      exact .bool _
    · split at h
      · cases h
        exact .number _
      · cases h
      · split at h
        · cases h
          exact .string _
        · split at h
          · cases h
            exact .number _
          · cases h
            exact .string _

theorem regular_of_plainValue {text : String} (h : plainValue text = .ok a) : Regular a := by
  unfold plainValue orRefuse at h
  split at h
  · next hvalue =>
    cases h
    exact regular_of_plainValue? hvalue
  · cases h

theorem regular_of_scalarValue {text : String} {plain : Bool} {tag : Option String} (h : scalarValue text plain tag = .ok a) :
    Regular a := by
  unfold scalarValue at h
  split at h
  · obtain ⟨v, hv, rfl⟩ := map_eq_ok h
    apply regular_withTag
    split at hv
    · exact regular_of_plainValue hv
    · cases hv
      exact .string text
  · split at h
    · obtain ⟨b, -, rfl⟩ := map_eq_ok h
      exact .bool b
    · split at h
      · split at h
        · cases h
          exact .number _
        · cases h
      · split at h
        · obtain ⟨x, -, rfl⟩ := map_eq_ok h
          exact .number _
        · split at h
          · split at h
            · cases h
              exact .null
            · cases h
          · split at h
            · exact regular_of_plainValue h
            · cases h
              exact .string text

/-! ### Collections that are read -/

theorem mappingOf_eq_ok {done m : Mapping} (hdone : Table.Distinct done) (h : mappingOf es done = .ok m) :
    m = done ++ es ∧ Table.Distinct m := by
  induction es generalizing done with
  | nil =>
    cases h
    exact ⟨(List.append_nil _).symm, hdone⟩
  | cons e rest ih =>
    obtain ⟨k, v⟩ := e
    rw [mappingOf] at h
    split at h
    · cases h
    · next hnew =>
      have hdistinct : Table.Distinct (done ++ [(k, v)]) := by
        refine List.pairwise_append.2 ⟨hdone, .cons (by simp) .nil, fun d hd e he => ?_⟩
        rw [List.mem_singleton.1 he]
        exact Table.has_eq_false_iff.1 (Bool.eq_false_iff.2 hnew) d hd
      obtain ⟨rfl, hm⟩ := ih hdistinct h
      exact ⟨by simp, hm⟩

variable {α β : Type}

theorem Reading.bind_eq_ok {x : Reading α} {f : α → Reading β} {y : β} (h : (x >>= f) = .ok y) :
    ∃ z, x = .ok z ∧ f z = .ok y := by
  cases x with
  | error reason => cases h
  | ok z => exact ⟨z, rfl, h⟩

theorem Counting.bind_eq_ok {x : Counting α} {f : α → Counting β} {n : Nat} {r : β × Nat} (h : (x >>= f) n = .ok r) :
    ∃ a n', x n = .ok (a, n') ∧ f a n' = .ok r := by
  cases hx : x n with
  | error reason =>
    simp [bind, StateT.bind, hx, Except.bind] at h
  | ok pair => exact ⟨pair.1, pair.2, rfl, by simpa [bind, StateT.bind, hx, Except.bind] using h⟩

theorem Counting.liftM_eq_ok {x : Reading α} {y : α} {n n' : Nat} (h : (liftM x : Counting α) n = .ok (y, n')) :
    x = .ok y := by
  cases x with
  | error reason => cases h
  | ok a =>
    cases h
    rfl

/-- Each of the results comes from one of the nodes. -/
theorem Counting.mem_mapM {f : α → Counting β} {items : List α} {n : Nat} {r : List β × Nat} (h : items.mapM f n = .ok r) :
    ∀ y ∈ r.1, ∃ x ∈ items, ∃ n₁ n₂, f x n₁ = .ok (y, n₂) := by
  induction items generalizing n r with
  | nil =>
    cases h
    simp
  | cons x rest ih =>
    rw [List.mapM_cons] at h
    obtain ⟨y, n₁, hy, h⟩ := Counting.bind_eq_ok h
    obtain ⟨ys, n₂, hys, h⟩ := Counting.bind_eq_ok h
    cases h
    intro z hz
    rcases List.mem_cons.1 hz with rfl | hz
    · exact ⟨x, List.mem_cons_self, _, _, hy⟩
    · obtain ⟨x', hx', hz'⟩ := ih hys z hz
      exact ⟨x', List.mem_cons_of_mem x hx', hz'⟩

/-- A document gives a regular value, as no mapping in it may have a key twice. -/
theorem regular_of_readValue {t : Targets} {depth : Nat} {node : Tree Nat} {n n' : Nat}
    (h : readValue t depth node n = .ok (a, n')) : Regular a := by
  induction depth generalizing node n n' a with
  | zero =>
    rw [readValue] at h
    obtain ⟨found, n₁, -, h⟩ := Counting.bind_eq_ok h
    split at h
    · exact regular_of_scalarValue (Counting.liftM_eq_ok h)
    · cases h
  | succ depth ih =>
    rw [readValue] at h
    obtain ⟨found, n₁, -, h⟩ := Counting.bind_eq_ok h
    split at h
    · exact regular_of_scalarValue (Counting.liftM_eq_ok h)
    · obtain ⟨values, n₂, hvalues, h⟩ := Counting.bind_eq_ok h
      cases h
      refine regular_withTag (.sequence fun v hv => ?_)
      obtain ⟨x, -, m, m', hx⟩ := Counting.mem_mapM hvalues v hv
      exact ih hx
    · obtain ⟨pairs, n₂, hpairs, h⟩ := Counting.bind_eq_ok h
      obtain ⟨entries, n₃, hentries, h⟩ := Counting.bind_eq_ok h
      cases h
      obtain ⟨hentries, hdistinct⟩ := mappingOf_eq_ok .nil (Counting.liftM_eq_ok hentries)
      rw [List.nil_append] at hentries
      rw [hentries] at hdistinct ⊢
      have hparts : ∀ e ∈ pairs, Regular e.1 ∧ Regular e.2 := by
        intro e he
        obtain ⟨x, -, m, m', hx⟩ := Counting.mem_mapM hpairs e he
        obtain ⟨k, m₁, hk, hx⟩ := Counting.bind_eq_ok hx
        obtain ⟨v, m₂, hv, hx⟩ := Counting.bind_eq_ok hx
        cases hx
        exact ⟨ih hk, ih hv⟩
      exact regular_withTag (.mapping hdistinct (fun e he => (hparts e he).1) fun e he => (hparts e he).2)
    · cases h

theorem regular_of_parse {text : String} (h : parse text = .ok a) : Regular a := by
  unfold parse at h
  obtain ⟨tokens, -, h⟩ := Reading.bind_eq_ok h
  obtain ⟨root, -, h⟩ := Reading.bind_eq_ok h
  split at h
  · cases h
    exact .null
  · obtain ⟨⟨tree, naming⟩, -, h⟩ := Reading.bind_eq_ok h
    obtain ⟨⟨v, used⟩, hv, rfl⟩ := map_eq_ok h
    exact regular_of_readValue hv

end Value
end Yaml
end NoteStencil
