import NoteStencil.FileSystem.Basic

/-! Paths as the pieces between their slashes. Cutting at the slashes undoes joining with them, so the steps of a path begin
with those of the path above it. -/

namespace NoteStencil
namespace Path

theorem slashPieces_ne_nil (cs : List Char) : slashPieces cs ≠ [] := by
  unfold slashPieces
  split
  · simp
  · split
    · simp
    · split <;> simp

theorem slash_not_mem {cs piece : List Char} (h : piece ∈ slashPieces cs) : '/' ∉ piece := by
  induction cs generalizing piece with
  | nil =>
    obtain rfl : piece = [] := by simpa [slashPieces] using h
    simp
  | cons c rest ih =>
    rw [slashPieces] at h
    split at h
    · rcases List.mem_cons.1 h with rfl | h
      · simp
      · exact ih h
    · next hc =>
      split at h
      · next hnil => exact absurd hnil (slashPieces_ne_nil rest)
      · next first more heq =>
        rcases List.mem_cons.1 h with rfl | h
        · have hfirst : '/' ∉ first := ih (heq ▸ List.mem_cons_self)
          simp [Ne.symm hc, hfirst]
        · exact ih (heq ▸ List.mem_cons_of_mem first h)

theorem slashPieces_slash (xs ys : List Char) : slashPieces (xs ++ '/' :: ys) = slashPieces xs ++ slashPieces ys := by
  induction xs with
  | nil => rfl
  | cons c rest ih =>
    rw [List.cons_append, slashPieces, slashPieces, ih]
    split
    · rfl
    · cases hrest : slashPieces rest with
      | nil => exact absurd hrest (slashPieces_ne_nil rest)
      | cons piece more => rfl

theorem slashPieces_of_not_mem {piece : List Char} (h : '/' ∉ piece) : slashPieces piece = [piece] := by
  induction piece with
  | nil => rfl
  | cons c cs ih =>
    obtain ⟨hc, hcs⟩ : '/' ≠ c ∧ '/' ∉ cs := by simpa using h
    rw [slashPieces, if_neg (Ne.symm hc), ih hcs]

theorem slashPieces_append {piece : List Char} (rest : List Char) (h : '/' ∉ piece) :
    slashPieces (piece ++ '/' :: rest) = piece :: slashPieces rest := by
  rw [slashPieces_slash, slashPieces_of_not_mem h]
  rfl

theorem slashPieces_joinPieces {first : List Char} {rest : List (List Char)}
    (h : ∀ piece ∈ first :: rest, '/' ∉ piece) : slashPieces (joinPieces (first :: rest)) = first :: rest := by
  induction rest generalizing first with
  | nil =>
    rw [joinPieces, List.intercalate_singleton]
    exact slashPieces_of_not_mem (h first List.mem_cons_self)
  | cons second rest ih =>
    have hrest : slashPieces (joinPieces (second :: rest)) = second :: rest :=
      ih fun piece hp => h piece (List.mem_cons_of_mem first hp)
    rw [joinPieces, List.intercalate_cons_cons, List.append_assoc, List.singleton_append,
      slashPieces_append _ (h first List.mem_cons_self)]
    exact congrArg _ hrest

theorem isAbsolute_iff (p : Path) : p.isAbsolute = true ↔ ∃ rest, rest ≠ [] ∧ slashPieces p.chars = [] :: rest := by
  unfold isAbsolute
  cases p.chars with
  | nil => simp [slashPieces]
  | cons c cs =>
    by_cases hc : c = '/'
    · simp [slashPieces, hc, slashPieces_ne_nil]
    · simp only [List.head?_cons, slashPieces, if_neg hc]
      split <;> simp_all

/-! ### The path above -/

/-- A list is what is left without its last elements of a kind, and those elements. -/
theorem exists_trimmed {α : Type} (kind : α → Bool) (xs : List α) :
    ∃ tail, xs = (xs.reverse.dropWhile kind).reverse ++ tail ∧ ∀ x ∈ tail, kind x = true := by
  refine ⟨(xs.reverse.takeWhile kind).reverse, ?_, fun x hx => ?_⟩
  · rw [← List.reverse_append, List.takeWhile_append_dropWhile, List.reverse_reverse]
  · have hall : (xs.reverse.takeWhile kind).all kind = true := List.all_takeWhile
    exact List.all_eq_true.1 hall x (List.mem_reverse.1 hx)

/-- What is left without its last elements of a kind ends in an element of another kind. -/
theorem exists_last_of_trimmed {α : Type} {kind : α → Bool} {xs : List α}
    (h : (xs.reverse.dropWhile kind).reverse ≠ []) :
    ∃ last, (xs.reverse.dropWhile kind).reverse = (xs.reverse.dropWhile kind).reverse.dropLast ++ [last] ∧
      kind last = false := by
  have hne : xs.reverse.dropWhile kind ≠ [] := fun he => h (by rw [he]; rfl)
  refine ⟨(xs.reverse.dropWhile kind).reverse.getLast h, (List.dropLast_concat_getLast h).symm, ?_⟩
  rw [List.getLast_reverse]
  exact Bool.eq_false_iff.2 (by simpa using List.head_dropWhile_not kind hne)

/-- A path is the path above it, fillers, a piece that names something, and the rest. -/
theorem exists_pieces_of_parent {p a : Path} (h : p.parent = some a) (ha : a.isEmpty = false) :
    ∃ first base fillers last tail, slashPieces p.chars = first :: base ++ fillers ++ last :: tail ∧
      a = (if base = [] then ⟨if first = [] then "/" else String.ofList first⟩
        else ⟨String.ofList (joinPieces (first :: base))⟩) ∧
      (∀ x ∈ fillers, isFiller x = true) ∧ isFiller last = false := by
  unfold parent at h
  split at h
  · cases h
  · next first rest hpieces =>
    simp only at h
    split at h
    · split at h
      · cases h
      · cases h
        cases ha
    · next kept hne =>
      obtain ⟨tail, hrest, -⟩ := exists_trimmed isFiller rest
      obtain ⟨last, hkept, hlast⟩ := exists_last_of_trimmed hne
      obtain ⟨fillers, hbase, hfillers⟩ :=
        exists_trimmed isFiller (rest.reverse.dropWhile isFiller).reverse.dropLast
      refine ⟨first, _, fillers, last, tail, ?_, (Option.some.inj h).symm, hfillers, hlast⟩
      rw [hpieces, List.cons_append, List.cons_append, ← hbase]
      conv => lhs; rw [hrest, hkept]
      simp

/-- The path above has the pieces before, but for a `/` that stands alone. -/
theorem pieces_above {first : List Char} {base : List (List Char)} {a : Path}
    (hflat : ∀ piece ∈ first :: base, '/' ∉ piece)
    (ha : a = if base = [] then ⟨if first = [] then "/" else String.ofList first⟩
      else ⟨String.ofList (joinPieces (first :: base))⟩) :
    (slashPieces a.chars).filter (· ≠ []) = (first :: base).filter (· ≠ []) ∧
      (a.isAbsolute = true ↔ first = []) := by
  by_cases hbase : base = []
  · by_cases hfirst : first = []
    · obtain rfl : a = ⟨"/"⟩ := by simpa [hbase, hfirst] using ha
      rw [hbase, hfirst]
      decide
    · obtain rfl : a = ⟨String.ofList first⟩ := by simpa [hbase, hfirst] using ha
      have hpieces : slashPieces (chars ⟨String.ofList first⟩) = [first] := by
        rw [chars, String.toList_ofList, slashPieces_of_not_mem (hflat first List.mem_cons_self)]
      rw [isAbsolute_iff, hpieces, hbase]
      simp [hfirst]
  · obtain rfl : a = ⟨String.ofList (joinPieces (first :: base))⟩ := by simpa [hbase] using ha
    have hpieces : slashPieces (chars ⟨String.ofList (joinPieces (first :: base))⟩) = first :: base := by
      rw [chars, String.toList_ofList, slashPieces_joinPieces hflat]
    rw [isAbsolute_iff, hpieces]
    simp [hbase]

end Path

namespace FileSystem

theorem steps_fillers {pieces : List (List Char)} (h : ∀ piece ∈ pieces, Path.isFiller piece = true) :
    ∃ k, (pieces.filter (· ≠ [])).map String.ofList = List.replicate k "." := by
  induction pieces with
  | nil => exact ⟨0, rfl⟩
  | cons piece rest ih =>
    obtain ⟨k, hk⟩ := ih fun x hx => h x (List.mem_cons_of_mem piece hx)
    have hfiller : piece = [] ∨ piece = ['.'] := by simpa [Path.isFiller] using h piece List.mem_cons_self
    rcases hfiller with rfl | rfl
    · exact ⟨k, by simpa using hk⟩
    · exact ⟨k + 1, by simpa [List.replicate_succ] using hk⟩

theorem steps_of_parent {p a : Path} (h : p.parent = some a) (ha : a.isEmpty = false) :
    a.isAbsolute = p.isAbsolute ∧
      ∃ k name more, steps p = steps a ++ (List.replicate k "." ++ name :: more) ∧ name ≠ "." := by
  obtain ⟨first, base, fillers, last, tail, hpieces, habove, hfillers, hlast⟩ := Path.exists_pieces_of_parent h ha
  have hflat : ∀ piece ∈ first :: base, '/' ∉ piece := by
    intro piece hpiece
    refine @Path.slash_not_mem p.chars piece ?_
    rw [hpieces]
    exact List.mem_append_left _ (List.mem_append_left _ hpiece)
  obtain ⟨hsteps, habsolute⟩ := Path.pieces_above hflat habove
  have hp : p.isAbsolute = true ↔ first = [] := by
    rw [Path.isAbsolute_iff, hpieces]
    simp
  obtain ⟨k, hk⟩ := steps_fillers hfillers
  obtain ⟨hempty, hdot⟩ : last ≠ [] ∧ last ≠ ['.'] := by simpa [Path.isFiller] using hlast
  refine ⟨Bool.eq_iff_iff.2 (habsolute.trans hp.symm), k, String.ofList last,
    (tail.filter (· ≠ [])).map String.ofList, ?_, fun he => hdot ?_⟩
  · have hname : (last :: tail).filter (· ≠ []) = last :: tail.filter (· ≠ []) :=
      List.filter_cons_of_pos (by simpa using hempty)
    rw [steps, steps, hpieces, hsteps, ← hk, List.filter_append, List.filter_append, hname, List.map_append,
      List.map_append, List.map_cons, List.append_assoc]
  · have hlist := congrArg String.toList he
    rwa [String.toList_ofList] at hlist

end FileSystem
end NoteStencil
