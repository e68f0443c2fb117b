import NoteStencil.Proofs.EditDistance
import NoteStencil.Proofs.Suggestions

/-! Which templates are suggested: those whose names are the least number of edits away from what was wanted, three at most and
none further than half its size. They are found by sorting, so it does not matter in which order the files of the directory are met. -/

namespace NoteStencil
namespace Template

open NoteStencil.Path FileSystem

variable {fs : FileSystem} {dir t : Path} {reference : String}

/-- The wanted name: the reference without its suffix. -/
def wanted (reference : String) : List Char := withoutSuffix reference.toList

/-- A template's name without its suffix. -/
def stem (t : Path) : List Char := withoutSuffix (nameOf t).toList

/-- How far a template's name is from what is wanted. -/
def farness (reference : String) (t : Path) : Nat := editDistance (wanted reference) (stem t)

/-- No further than half the size of the wanted name in octets. -/
def IsNear (reference : String) (t : Path) : Prop :=
  farness reference t ≤ (String.ofList (wanted reference)).utf8ByteSize / 2

/-- Nearer, or as near and not later in the alphabet. -/
def Before (reference : String) (t u : Path) : Prop :=
  farness reference t < farness reference u ∨ farness reference t = farness reference u ∧ nameOf t ≤ nameOf u

/-- What is suggested when a walk meets the files of the directory in this order. -/
def suggestionsOf (walk : List (List String)) (reference : String) : List String :=
  nearest (wanted reference) (((walk.mergeSort namesLe).map Path.ofNames).map nameOf)

/-! ### Order -/

theorem scoreLe_iff {a b : String × Nat} : scoreLe a b = true ↔ a.2 < b.2 ∨ a.2 = b.2 ∧ a.1 ≤ b.1 := by
  unfold scoreLe
  split
  · next h => simp [h]
  · next h => simp [h]

theorem scoreLe_trans (a b c : String × Nat) (h : scoreLe a b = true) (h' : scoreLe b c = true) : scoreLe a c = true := by
  rw [scoreLe_iff] at h h' ⊢
  rcases h with h | ⟨h, hab⟩
  · left
    omega
  · rcases h' with h' | ⟨h', hbc⟩
    · left
      omega
    · exact .inr ⟨h.trans h', String.le_trans hab hbc⟩

theorem scoreLe_total (a b : String × Nat) : (scoreLe a b || scoreLe b a) = true := by
  rw [Bool.or_eq_true, scoreLe_iff, scoreLe_iff]
  rcases Nat.lt_trichotomy a.2 b.2 with h | h | h
  · exact .inl (.inl h)
  · exact (String.le_total a.1 b.1).imp (fun hle => .inr ⟨h, hle⟩) fun hle => .inr ⟨h.symm, hle⟩
  · exact .inr (.inl h)

theorem scoreLe_antisymm {a b : String × Nat} (h : scoreLe a b = true) (h' : scoreLe b a = true) : a = b := by
  rw [scoreLe_iff] at h h'
  rcases h with h | ⟨h, hab⟩
  · omega
  · rcases h' with h' | ⟨-, hba⟩
    · omega
    · exact Prod.ext (String.le_antisymm hab hba) h

/-- Names in another order have the same nearest ones. -/
theorem nearest_perm {names names' : List String} (w : List Char) (h : names.Perm names') :
    nearest w names = nearest w names' := by
  have hscored := (h.map (scored w)).filter (·.2 ≤ distanceLimit w)
  have hsorted : (((names.map (scored w)).filter (·.2 ≤ distanceLimit w)).mergeSort scoreLe).Perm
      (((names'.map (scored w)).filter (·.2 ≤ distanceLimit w)).mergeSort scoreLe) :=
    (List.mergeSort_perm _ _).trans (hscored.trans (List.mergeSort_perm _ _).symm)
  have heq := hsorted.eq_of_pairwise (fun a b _ _ => scoreLe_antisymm)
    (List.pairwise_mergeSort scoreLe_trans scoreLe_total _) (List.pairwise_mergeSort scoreLe_trans scoreLe_total _)
  rw [nearest, nearest, heq]

theorem suggestions_eq (walk : List (List String)) (h : walk.Perm (fs.markdownBelow dir)) (reference : String) :
    suggestions fs dir reference = suggestionsOf walk reference := by
  apply nearest_perm
  have hwalk := (List.mergeSort_perm (fs.markdownBelow dir) namesLe).trans
    (h.symm.trans (List.mergeSort_perm walk namesLe).symm)
  exact (hwalk.map Path.ofNames).map nameOf

/-! ### Templates behind the names -/

/-- No two listed templates have one path. -/
theorem list_nodup (hproper : fs.Proper) (dir : Path) : (list fs dir).Nodup := by
  refine (list_pairwise hproper dir).imp ?_
  rintro t u hlt rfl
  exact List.lt_irrefl _ hlt

/-- Listed templates that are near enough, in the order in which they are suggested. -/
def ranked (fs : FileSystem) (dir : Path) (reference : String) : List Path :=
  ((list fs dir).filter fun t => farness reference t ≤ distanceLimit (wanted reference)).mergeSort
    fun t u => scoreLe (scored (wanted reference) (nameOf t)) (scored (wanted reference) (nameOf u))

/-- Sorting templates is sorting their names with their scores. -/
theorem suggestions_eq_ranked (fs : FileSystem) (dir : Path) (reference : String) :
    suggestions fs dir reference = ((ranked fs dir reference).take 3).map nameOf := by
  have hsorted : (ranked fs dir reference).map (scored (wanted reference) ∘ nameOf) =
      ((((list fs dir).map nameOf).map (scored (wanted reference))).filter
        (·.2 ≤ distanceLimit (wanted reference))).mergeSort scoreLe := by
    rw [List.map_map, List.filter_map]
    exact List.map_mergeSort fun _ _ _ _ => rfl
  change (((((list fs dir).map nameOf).map (scored (wanted reference))).filter
    (·.2 ≤ distanceLimit (wanted reference))).mergeSort scoreLe |>.take 3).map (·.1) = _
  rw [← hsorted, ← List.map_take, List.map_map]
  rfl

theorem distanceLimit_eq (w : List Char) : distanceLimit w = (String.ofList w).utf8ByteSize / 2 := by
  unfold distanceLimit
  omega

theorem mem_ranked_iff : t ∈ ranked fs dir reference ↔ t ∈ list fs dir ∧ IsNear reference t := by
  rw [ranked, List.mem_mergeSort, List.mem_filter, decide_eq_true_eq, distanceLimit_eq]
  rfl

theorem ranked_pairwise (fs : FileSystem) (dir : Path) (reference : String) :
    (ranked fs dir reference).Pairwise (Before reference) := by
  refine List.Pairwise.imp ?_ (List.pairwise_mergeSort ?_ ?_ _)
  · intro t u h
    exact scoreLe_iff.1 h
  · intro a b c
    exact scoreLe_trans _ _ _
  · intro a b
    exact scoreLe_total _ _

theorem ranked_nodup (hproper : fs.Proper) (dir : Path) (reference : String) : (ranked fs dir reference).Nodup :=
  (List.mergeSort_perm _ _).nodup_iff.2 ((list_nodup hproper dir).filter _)

/-- The nearest of the listed templates: different ones, at most so many and all near, in order; and a near one that is not
among them comes behind as many as there may be. -/
structure Chosen (fs : FileSystem) (dir : Path) (reference : String) (most : Nat) (chosen : List Path) : Prop where
  different : chosen.Nodup
  few : chosen.length ≤ most
  near : ∀ t ∈ chosen, t ∈ list fs dir ∧ IsNear reference t
  ordered : chosen.Pairwise (Before reference)
  best : ∀ t ∈ list fs dir, IsNear reference t → t ∉ chosen → chosen.length = most ∧ ∀ u ∈ chosen, Before reference u t

theorem chosen_take (hproper : fs.Proper) (dir : Path) (reference : String) (most : Nat) :
    Chosen fs dir reference most ((ranked fs dir reference).take most) := by
  have hsplit := List.take_append_drop most (ranked fs dir reference)
  have hordered := ranked_pairwise fs dir reference
  rw [← hsplit, List.pairwise_append] at hordered
  obtain ⟨hfront, -, hacross⟩ := hordered
  refine ⟨(ranked_nodup hproper dir reference).sublist (List.take_sublist _ _), List.length_take_le _ _, ?_, hfront, ?_⟩
  · intro t ht
    exact mem_ranked_iff.1 (List.mem_of_mem_take ht)
  · intro t ht hnear hnot
    have hmem : t ∈ ranked fs dir reference := mem_ranked_iff.2 ⟨ht, hnear⟩
    rw [← hsplit] at hmem
    have hbehind : t ∈ (ranked fs dir reference).drop most := (List.mem_append.1 hmem).resolve_left hnot
    have hlong := List.length_pos_of_mem hbehind
    rw [List.length_drop] at hlong
    refine ⟨?_, fun u hu => hacross u hu t hbehind⟩
    rw [List.length_take]
    omega

/-- What is suggested for a reference that leads nowhere are the names of the nearest listed templates, three at most, counted in
the least number of edits, and in alphabetical order among equals. The order in which a walk meets the files makes no difference. -/
theorem suggestions_nearest {name : String} {d : Path} {names : List String} (hproper : fs.Proper)
    (h : resolve fs (some dir) reference = .error (.templateNotFound name d names)) :
    (∀ t, LeastEdits (wanted reference) (stem t) (farness reference t)) ∧
    (∃ chosen, names = chosen.map nameOf ∧ Chosen fs dir reference 3 chosen) ∧
    ∀ walk : List (List String), walk.Perm (fs.markdownBelow dir) → names = suggestionsOf walk reference := by
  obtain ⟨hfailure, -⟩ := resolve_eq_error_iff.1 h
  obtain ⟨-, -, rfl⟩ := Failure.templateNotFound.inj hfailure
  refine ⟨fun t => leastEdits_editDistance _ _, ?_, ?_⟩
  · exact ⟨_, suggestions_eq_ranked fs dir reference, chosen_take hproper dir reference 3⟩
  · intro walk hwalk
    exact suggestions_eq walk hwalk reference

/-- Of four templates that are near enough the three nearest are suggested, and the same from a walk the other way round. -/
theorem suggestions_nearest_four :
    let fs : FileSystem :=
      { entries := [(["v"], .directory), (["v", "dally.md"], .file []), (["v", "daily.md"], .file []),
          (["v", "dily.md"], .file []), (["v", "weekly.md"], .file []), (["v", "dial.md"], .file [])] }
    resolve fs (some ⟨"/v"⟩) "dialy" =
        .error (.templateNotFound "dialy" ⟨"/v"⟩ ["dial.md", "dily.md", "daily.md"]) ∧
      (∃ chosen, ["dial.md", "dily.md", "daily.md"] = chosen.map nameOf ∧ Chosen fs ⟨"/v"⟩ "dialy" 3 chosen) ∧
      suggestionsOf [["dial.md"], ["weekly.md"], ["dily.md"], ["daily.md"], ["dally.md"]] "dialy" =
        ["dial.md", "dily.md", "daily.md"] := by
  intro fs
  have hproper : fs.Proper := by decide +kernel
  have hbelow : fs.markdownBelow ⟨"/v"⟩ = [["dally.md"], ["daily.md"], ["dily.md"], ["weekly.md"], ["dial.md"]] := by
    decide +kernel
  have hnames : suggestions fs ⟨"/v"⟩ "dialy" =
      nearest "dialy".toList ["dally.md", "daily.md", "dily.md", "weekly.md", "dial.md"] := by
    apply nearest_perm
    have hlist := ((List.mergeSort_perm (fs.markdownBelow ⟨"/v"⟩) namesLe).map Path.ofNames).map nameOf
    rwa [hbelow] at hlist
  have hscored : (["dally.md", "daily.md", "dily.md", "weekly.md", "dial.md"].map (scored "dialy".toList)).filter
      (·.2 ≤ distanceLimit "dialy".toList) = [("dally.md", 2), ("daily.md", 2), ("dily.md", 1), ("dial.md", 1)] := by
    decide +kernel
  have hnear : suggestions fs ⟨"/v"⟩ "dialy" = ["dial.md", "dily.md", "daily.md"] := by
    rw [hnames, nearest, hscored]
    simp [List.mergeSort, scoreLe]
  have hresolve : resolve fs (some ⟨"/v"⟩) "dialy" =
      .error (.templateNotFound "dialy" ⟨"/v"⟩ ["dial.md", "dily.md", "daily.md"]) := by
    refine resolve_eq_error_iff.2 ⟨by rw [hnear], ?_⟩
    decide +kernel
  obtain ⟨-, hchosen, hwalks⟩ := suggestions_nearest hproper hresolve
  refine ⟨hresolve, hchosen, (hwalks _ ?_).symm⟩
  rw [hbelow]
  decide

end Template
end NoteStencil
