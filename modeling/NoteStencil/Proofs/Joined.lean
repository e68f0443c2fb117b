import NoteStencil.Proofs.Parents
import NoteStencil.Proofs.Places

/-! Paths behind which names are joined. Such a path has the steps of the path before it and the name as its last step, so
what it leads to is what the name stands for in the directory before it. Joined one by one, names make the same path
as joined with slashes between them. -/

namespace NoteStencil
namespace Path

/-- A name as a directory can hold one. -/
structure Named (name : String) : Prop where
  filled : name ≠ ""
  flat : '/' ∉ name.toList
  proper : name ≠ "." ∧ name ≠ ".."

instance (name : String) : Decidable (Named name) :=
  decidable_of_iff (name ≠ "" ∧ '/' ∉ name.toList ∧ (name ≠ "." ∧ name ≠ ".."))
    ⟨fun ⟨filled, flat, proper⟩ => ⟨filled, flat, proper⟩, fun h => ⟨h.filled, h.flat, h.proper⟩⟩

variable {p : Path} {name : String} {names : List String}

theorem Named.relative (h : Named name) : isAbsolute ⟨name⟩ = false := by
  cases hhead : name.toList.head? with
  | none => simp [isAbsolute, chars, hhead]
  | some c =>
    have hc : c ≠ '/' := fun he => h.flat (he ▸ List.mem_of_mem_head? hhead)
    simp [isAbsolute, chars, hhead, hc]

/-- A path starts with what something is joined to. -/
theorem text_join (p : Path) {q : Path} (hq : q.isAbsolute = false) : ∃ tail, (p.join q).text = p.text ++ tail := by
  unfold join
  rw [hq, if_neg Bool.false_ne_true]
  split
  · exact ⟨_, rfl⟩
  · exact ⟨"/" ++ q.text, by rw [String.append_assoc]⟩

/-- The path before a joined one, up to the slash that comes before what is joined. -/
def lead (p : Path) : List Char := if p.chars.getLast? = some '/' then p.chars.dropLast else p.chars

theorem chars_join {q : Path} (hp : p.isEmpty = false) (hq : q.isAbsolute = false) :
    (p.join q).chars = p.lead ++ '/' :: q.chars := by
  unfold join lead
  rw [hq, if_neg Bool.false_ne_true]
  by_cases hlast : p.chars.getLast? = some '/'
  · obtain ⟨front, hfront⟩ := List.getLast?_eq_some_iff.1 hlast
    rw [if_pos (.inr hlast), if_pos hlast, hfront]
    simp only [chars] at hfront ⊢
    simp [hfront]
  · rw [if_neg (by simp [hp, hlast]), if_neg hlast]
    simp [chars]

theorem slashPieces_lead (p : Path) :
    slashPieces p.chars = slashPieces p.lead ++ if p.chars.getLast? = some '/' then [[]] else [] := by
  unfold lead
  by_cases hlast : p.chars.getLast? = some '/'
  · obtain ⟨front, hfront⟩ := List.getLast?_eq_some_iff.1 hlast
    rw [if_pos hlast, if_pos hlast, hfront, List.dropLast_concat, slashPieces_slash]
    rfl
  · rw [if_neg hlast, if_neg hlast, List.append_nil]

theorem slashPieces_join (hp : p.isEmpty = false) (h : Named name) :
    slashPieces (p.join ⟨name⟩).chars = slashPieces p.lead ++ [name.toList] := by
  rw [chars_join hp h.relative, slashPieces_slash]
  exact congrArg _ (slashPieces_of_not_mem h.flat)

theorem isEmpty_join {q : Path} (hp : p.isEmpty = false) (hq : q.isAbsolute = false) : (p.join q).isEmpty = false := by
  rw [isEmpty, chars_join hp hq]
  simp

theorem isAbsolute_join {q : Path} (hp : p.isEmpty = false) (hq : q.isAbsolute = false) :
    (p.join q).isAbsolute = p.isAbsolute := by
  rw [isAbsolute, isAbsolute, chars_join hp hq, lead]
  by_cases hlast : p.chars.getLast? = some '/'
  · obtain ⟨front, hfront⟩ := List.getLast?_eq_some_iff.1 hlast
    rw [if_pos hlast, hfront, List.dropLast_concat]
    cases front <;> rfl
  · rw [if_neg hlast]
    cases hchars : p.chars with
    | nil => simp [isEmpty, hchars] at hp
    | cons c rest => rfl

theorem getLast?_join (hp : p.isEmpty = false) (h : Named name) : (p.join ⟨name⟩).chars.getLast? ≠ some '/' := by
  have hne : name.toList ≠ [] := by simpa using h.filled
  have hlast : ('/' :: chars ⟨name⟩).getLast? = some (name.toList.getLast hne) :=
    (List.getLast?_cons_of_ne_nil hne).trans (List.getLast?_eq_some_getLast hne)
  rw [chars_join hp h.relative, List.getLast?_append, hlast, Option.some_or]
  exact fun he => h.flat (Option.some.inj he ▸ List.getLast_mem hne)

/-- Joining goes from left to right or from right to left. -/
theorem join_join {q : Path} (hp : p.isEmpty = false) (hname : Named name) (hq : q.isAbsolute = false) :
    (p.join ⟨name⟩).join q = p.join ⟨name ++ "/" ++ q.text⟩ := by
  have hlast := getLast?_join hp hname
  have hrelative : isAbsolute ⟨name ++ "/" ++ q.text⟩ = false := by
    have hne : name.toList ≠ [] := by simpa using hname.filled
    obtain ⟨c, rest, hc⟩ := List.exists_cons_of_ne_nil hne
    have hslash : c ≠ '/' := fun he => hname.flat (by simp [hc, he])
    simp [isAbsolute, chars, hc, hslash]
  have heq : ((p.join ⟨name⟩).join q).chars = (p.join ⟨name ++ "/" ++ q.text⟩).chars := by
    rw [chars_join (isEmpty_join hp hname.relative) hq, lead, if_neg hlast, chars_join hp hname.relative,
      chars_join hp hrelative]
    simp [chars]
  exact congrArg Path.mk (String.toList_injective heq)

/-! ### Names joined one by one -/

theorem joinAll_cons (p : Path) (name : String) (names : List String) :
    p.joinAll (name :: names) = (p.join ⟨name⟩).joinAll names := rfl

theorem joinAll_concat (p : Path) (names : List String) (name : String) :
    p.joinAll (names ++ [name]) = (p.joinAll names).join ⟨name⟩ := by
  rw [joinAll, List.foldl_append]
  rfl

theorem ofNames_cons {names : List String} (name : String) (h : names ≠ []) :
    ofNames (name :: names) = ⟨name ++ "/" ++ (ofNames names).text⟩ :=
  congrArg Path.mk (String.intercalate_cons_of_ne_nil h)

theorem relative_ofNames (h : ∀ name ∈ names, Named name) : (ofNames names).isAbsolute = false := by
  cases names with
  | nil => decide
  | cons name rest =>
    obtain ⟨hname, -⟩ := List.forall_mem_cons.1 h
    by_cases hrest : rest = []
    · rw [hrest, ofNames, String.intercalate_singleton]
      exact hname.relative
    · have hne : name.toList ≠ [] := by simpa using hname.filled
      obtain ⟨c, more, hc⟩ := List.exists_cons_of_ne_nil hne
      have hslash : c ≠ '/' := fun he => hname.flat (by simp [hc, he])
      rw [ofNames_cons name hrest]
      simp [isAbsolute, chars, hc, hslash]

/-- Names joined one by one make the path with slashes between them. -/
theorem join_ofNames (hp : p.isEmpty = false) (h : ∀ name ∈ names, Named name) (hne : names ≠ []) :
    p.join (ofNames names) = p.joinAll names := by
  induction names generalizing p with
  | nil => exact absurd rfl hne
  | cons name rest ih =>
    obtain ⟨hname, hrest⟩ := List.forall_mem_cons.1 h
    by_cases hlast : rest = []
    · rw [hlast, ofNames, String.intercalate_singleton]
      rfl
    · rw [joinAll_cons, ← ih (isEmpty_join hp hname.relative) hrest hlast, join_join hp hname (relative_ofNames hrest),
        ofNames_cons name hlast]

theorem isEmpty_joinAll (hp : p.isEmpty = false) (h : ∀ name ∈ names, Named name) : (p.joinAll names).isEmpty = false := by
  induction names generalizing p with
  | nil => exact hp
  | cons name rest ih =>
    obtain ⟨hname, hrest⟩ := List.forall_mem_cons.1 h
    exact ih (isEmpty_join hp hname.relative) hrest

theorem slashPieces_ofNames (h : ∀ name ∈ names, Named name) (hne : names ≠ []) :
    slashPieces (ofNames names).chars = names.map String.toList := by
  obtain ⟨name, rest, rfl⟩ := List.exists_cons_of_ne_nil hne
  have hchars : (ofNames (name :: rest)).chars = joinPieces (name.toList :: rest.map String.toList) := by
    rw [chars, ofNames, String.toList_intercalate]
    rfl
  rw [hchars, slashPieces_joinPieces, List.map_cons]
  intro piece hpiece
  obtain ⟨other, hother, rfl⟩ := List.mem_map.1 (show piece ∈ (name :: rest).map String.toList from hpiece)
  exact (h other hother).flat

/-! ### The last name -/

theorem Named.pieces (h : Named name) : name.toList ≠ [] ∧ name.toList ≠ ['.'] ∧ name.toList ≠ ['.', '.'] := by
  refine ⟨by simpa using h.filled, fun he => h.proper.1 ?_, fun he => h.proper.2 ?_⟩
  · exact String.toList_injective he
  · exact String.toList_injective he

theorem fileName_of_pieces (front : List (List Char)) (h : Named name)
    (hpieces : slashPieces p.chars = front ++ [name.toList]) : p.fileName = some name := by
  obtain ⟨hne, hdot, hdots⟩ := h.pieces
  have hkept : [name.toList].filter (!isFiller ·) = [name.toList] := List.filter_cons_of_pos (by simp [isFiller, hne, hdot])
  simp only [fileName, components, hpieces, List.filter_append, hkept, List.map_append, List.map_singleton,
    ← List.append_assoc, List.getLast?_concat, pieceComponent, if_neg hdots, String.ofList_toList]

theorem fileName_join (hp : p.isEmpty = false) (h : Named name) : (p.join ⟨name⟩).fileName = some name :=
  fileName_of_pieces (slashPieces p.lead) h (slashPieces_join hp h)

theorem fileName_ofNames (h : ∀ other ∈ names, Named other) (hname : Named name) :
    (ofNames (names ++ [name])).fileName = some name := by
  refine fileName_of_pieces (names.map String.toList) hname ?_
  rw [slashPieces_ofNames _ (by simp), List.map_append]
  · rfl
  · intro other hother
    rcases List.mem_append.1 hother with hother | hother
    · exact h other hother
    · rw [List.mem_singleton.1 hother]
      exact hname

end Path

namespace FileSystem

open NoteStencil.Path

variable {fs : FileSystem} {p : Path} {name : String} {names : List String} {place : Place}

/-! ### Where joined paths lead -/

theorem steps_ofNames (h : ∀ name ∈ names, Named name) (hne : names ≠ []) : steps (ofNames names) = names := by
  have hfilled : (names.map String.toList).filter (· ≠ []) = names.map String.toList := by
    refine List.filter_eq_self.2 fun piece hpiece => ?_
    obtain ⟨name, hname, rfl⟩ := List.mem_map.1 hpiece
    simpa using (h name hname).filled
  rw [steps, slashPieces_ofNames h hne, hfilled, List.map_map]
  simp [Function.comp_def]

theorem steps_join (hp : p.isEmpty = false) (h : Named name) : steps (p.join ⟨name⟩) = steps p ++ [name] := by
  have hlead : (slashPieces p.chars).filter (· ≠ []) = (slashPieces p.lead).filter (· ≠ []) := by
    rw [slashPieces_lead, List.filter_append]
    split <;> simp
  rw [steps, steps, slashPieces_join hp h, hlead, List.filter_append, List.map_append]
  simp [h.filled]

theorem closedSteps_join (hp : p.isEmpty = false) (h : Named name) : closedSteps (p.join ⟨name⟩) = steps p ++ [name] := by
  have hlast : (p.join ⟨name⟩).chars.getLast? ≠ some '/' := getLast?_join hp h
  rw [closedSteps, steps_join hp h, endsInSlash]
  simp [hlast]

/-- What is wrong with the text of a path is wrong with every longer one. -/
theorem textFault_of_join (hp : p.isEmpty = false) (h : Named name) (htext : textFault (p.join ⟨name⟩) = none) :
    textFault p = none := by
  obtain ⟨tail, htail⟩ := text_join p h.relative
  have hsize : p.text.utf8ByteSize ≤ (p.join ⟨name⟩).text.utf8ByteSize := by
    rw [htail, String.utf8ByteSize_append]
    omega
  have hzero : p.chars.contains '\x00' = true → (p.join ⟨name⟩).chars.contains '\x00' = true := by
    simp only [chars, htail, String.toList_append, List.contains_append, Bool.or_eq_true]
    exact .inl
  unfold textFault at htext ⊢
  split at htext
  · cases htext
  · next hclear =>
    rw [isEmpty_join hp h.relative, if_neg Bool.false_ne_true] at htext
    split at htext
    · cases htext
    · next hshort =>
      rw [if_neg (mt hzero hclear), hp, if_neg Bool.false_ne_true, if_neg fun hlong => hshort (Nat.le_trans hlong hsize)]

theorem start_join (hp : p.isEmpty = false) (h : Named name) : fs.start (p.join ⟨name⟩) = fs.start p := by
  rw [start, start, isAbsolute_join hp h.relative]

/-- A path with a name behind it leads on from a directory, to what has the name there or along a link. -/
theorem place?_join (hp : p.isEmpty = false) (h : Named name) (hplace : fs.place? (p.join ⟨name⟩) = some place) :
    ∃ here, fs.place? p = some here ∧ fs.node? here = some .directory ∧
      ∃ node, fs.node? (here ++ [name]) = some node ∧ ((∃ target, node = .link target) ∨ place = here ++ [name]) := by
  obtain ⟨htext, hleads⟩ := locate_eq_ok_iff.1 (place?_eq_some_iff.1 hplace)
  rw [closedSteps_join hp h, start_join hp h] at hleads
  obtain ⟨here, m, hbefore, hinside, honward⟩ := hleads.before
  have hclosed : Leads fs linkLimit (fs.start p) (closedSteps p) (.found here) := by
    refine hbefore.onward fun m => ?_
    split
    · exact .here hinside .arrived
    · exact .arrived
  refine ⟨here, place?_eq_some_iff.2 (locate_eq_ok_iff.2 ⟨textFault_of_join hp h htext, hclosed⟩), hinside, ?_⟩
  generalize htarget : Target.found place = target at honward
  cases honward with
  | here => exact absurd rfl h.proper.1
  | up => exact absurd rfl h.proper.2
  | free => cases htarget
  | down _ _ _ there _ onward =>
    cases onward
    exact ⟨_, there, .inr (Target.found.inj htarget)⟩
  | follow _ _ _ there _ => exact ⟨_, there, .inl ⟨_, rfl⟩⟩

end FileSystem
end NoteStencil
