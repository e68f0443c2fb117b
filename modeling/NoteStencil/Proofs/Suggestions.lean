import NoteStencil.Proofs.Lookup

/-! Suggestions that can be followed. A suggestion is a listed template's path with every backslash turned into a slash; it
leads back to the template exactly when there was none. -/

namespace NoteStencil
namespace Template

open NoteStencil.Path FileSystem

variable {fs : FileSystem} {dir p q t : Path} {reference s : String}

/-! ### Names as they are suggested -/

theorem toList_nameOf (t : Path) : (nameOf t).toList = t.chars.map fun c => if c = '\\' then '/' else c :=
  String.toList_ofList

theorem backslash_not_mem_nameOf (t : Path) : '\\' ∉ (nameOf t).toList := by
  rw [toList_nameOf, List.mem_map]
  rintro ⟨c, -, hc⟩
  split at hc
  · cases hc
  · next hne => exact hne hc

theorem nameOf_eq_text (h : '\\' ∉ t.chars) : nameOf t = t.text := by
  have hkept : ∀ c ∈ t.chars, (if c = '\\' then '/' else c) = c := by
    intro c hc
    rw [if_neg]
    rintro rfl
    exact h hc
  refine String.toList_injective ((toList_nameOf t).trans ?_)
  exact (List.map_congr_left hkept).trans (List.map_id _)

theorem mem_names_of_suggestions (h : s ∈ suggestions fs dir reference) : ∃ t ∈ list fs dir, nameOf t = s := by
  obtain ⟨pair, hpair, rfl⟩ := List.mem_map.1 h
  have hscored := (List.mem_filter.1 (List.mem_mergeSort.1 (List.mem_of_mem_take hpair))).1
  obtain ⟨name, hname, rfl⟩ := List.mem_map.1 hscored
  exact List.mem_map.1 hname

/-! ### Where they lead -/

theorem exists_tail (h : q = p ∨ q ∈ dotted p) : ∃ tail, q.chars = p.chars ++ tail ∧ '\\' ∉ tail := by
  rcases h with rfl | h
  · exact ⟨[], (List.append_nil _).symm, nofun⟩
  · unfold dotted at h
    split at h
    · cases h
    · obtain rfl := List.mem_singleton.1 h
      exact ⟨".md".toList, String.toList_append, by decide⟩

/-- A template with a backslash in its path is none of the meanings of the name that stands for it. -/
theorem join_not_mem_meanings (hdir : dir.isEmpty = false) (hrelative : t.isAbsolute = false) (hback : '\\' ∈ t.chars) :
    dir.join t ∉ meanings dir (nameOf t) := by
  have hchars := chars_join hdir hrelative
  have hclean := backslash_not_mem_nameOf t
  have hown {tail : List Char} (htail : '\\' ∉ tail) : (dir.join t).chars ≠ (nameOf t).toList ++ tail := by
    intro he
    have hmem : '\\' ∈ (dir.join t).chars := by
      rw [hchars]
      simp [hback]
    rw [he] at hmem
    exact (List.mem_append.1 hmem).elim hclean htail
  intro hmem
  have hcases : (dir.join t = dir.join ⟨nameOf t⟩ ∨ dir.join t ∈ dotted (dir.join ⟨nameOf t⟩)) ∨
      (dir.join t = ⟨nameOf t⟩ ∨ dir.join t ∈ dotted ⟨nameOf t⟩) := by
    simpa [meanings, or_assoc] using hmem
  rcases hcases with hinside | houtside
  · obtain ⟨tail, heq, htail⟩ := exists_tail hinside
    by_cases habsolute : isAbsolute ⟨nameOf t⟩ = true
    · have halone : dir.join ⟨nameOf t⟩ = ⟨nameOf t⟩ := if_pos habsolute
      rw [halone] at heq
      exact hown htail heq
    · rw [hchars, chars_join hdir (Bool.eq_false_iff.2 habsolute), List.append_assoc] at heq
      have hsame : t.chars = (nameOf t).toList ++ tail := (List.cons.inj (List.append_cancel_left heq)).2
      have hlength : t.chars.length = (nameOf t).toList.length := by rw [toList_nameOf, List.length_map]
      rw [List.append_inj_left (hsame.symm.trans (List.append_nil _).symm) hlength.symm] at hclean
      exact hclean hback
  · obtain ⟨tail, heq, htail⟩ := exists_tail houtside
    exact hown htail heq

theorem Listed.relative (h : Listed fs dir t) : t.isAbsolute = false := by
  obtain ⟨hway, -, -, -⟩ := h
  exact relative_ofNames hway.named

/-- Each suggestion stands for a template below the directory, and leads to it exactly when no backslash of the template's
path was turned into a slash. -/
theorem suggestions_followed {name : String} {d : Path} {names : List String} (hproper : fs.Proper)
    (hdir : fs.isDirectory dir = true) (h : resolve fs (some dir) reference = .error (.templateNotFound name d names)) :
    ∀ s ∈ names, ∃ t, Listed fs dir t ∧ nameOf t = s ∧ fs.isFile (dir.join t) = true ∧
      (resolve fs (some dir) s = .ok (dir.join t) ↔ '\\' ∉ t.chars) := by
  obtain ⟨hfailure, -⟩ := resolve_eq_error_iff.1 h
  obtain ⟨-, -, rfl⟩ := Failure.templateNotFound.inj hfailure
  intro s hs
  obtain ⟨t, ht, rfl⟩ := mem_names_of_suggestions hs
  have hlisted := (mem_list_iff hproper hdir).1 ht
  have hfile := hlisted.isFile hdir
  refine ⟨t, hlisted, rfl, hfile, fun hresolve hback => ?_, fun hplain => ?_⟩
  · obtain ⟨root, hroot, -⟩ := isDirectory_iff.1 hdir
    obtain ⟨before, after, hmeanings, -⟩ := resolve_eq_ok_iff.1 hresolve
    exact join_not_mem_meanings (ne_empty_of_place? hroot) hlisted.relative hback (by rw [hmeanings]; simp)
  · rw [nameOf_eq_text hplain]
    exact resolve_of_isFile hfile

/-- A template with a backslash in its name is suggested with a slash, and the suggestion leads nowhere: it is all that is
suggested for itself. -/
theorem suggestion_leads_nowhere :
    let fs : FileSystem := { entries := [(["v"], .directory), (["v", "a\\b.md"], .file [])] }
    list fs ⟨"/v"⟩ = [⟨"a\\b.md"⟩] ∧
      resolve fs (some ⟨"/v"⟩) "a/c" = .error (.templateNotFound "a/c" ⟨"/v"⟩ ["a/b.md"]) ∧
      resolve fs (some ⟨"/v"⟩) "a/b.md" ≠ .ok ⟨"/v/a\\b.md"⟩ ∧
      resolve fs (some ⟨"/v"⟩) "a/b.md" = .error (.templateNotFound "a/b.md" ⟨"/v"⟩ ["a/b.md"]) := by
  intro fs
  have hproper : fs.Proper := by decide +kernel
  have hdir : fs.isDirectory ⟨"/v"⟩ = true := by decide +kernel
  have hbelow : fs.markdownBelow ⟨"/v"⟩ = [["a\\b.md"]] := by decide +kernel
  have hlist : list fs ⟨"/v"⟩ = [⟨"a\\b.md"⟩] := by
    rw [list, hbelow]
    decide +kernel
  have hfails {reference : String} (hnone : ∀ p ∈ meanings ⟨"/v"⟩ reference, fs.isFile p = false)
      (hnear : nearest (withoutSuffix reference.toList) ["a/b.md"] = ["a/b.md"]) :
      resolve fs (some ⟨"/v"⟩) reference = .error (.templateNotFound reference ⟨"/v"⟩ ["a/b.md"]) := by
    refine resolve_eq_error_iff.2 ⟨?_, hnone⟩
    have hnames : (list fs ⟨"/v"⟩).map nameOf = ["a/b.md"] := by
      rw [hlist]
      rfl
    rw [suggestions, hnames, hnear]
  have hfirst := hfails (by decide +kernel : ∀ p ∈ meanings ⟨"/v"⟩ "a/c", fs.isFile p = false) (by decide +kernel)
  refine ⟨hlist, hfirst, fun hresolve => ?_, hfails (by decide +kernel) (by decide +kernel)⟩
  obtain ⟨t, hlisted, -, -, hfollowed⟩ := suggestions_followed hproper hdir hfirst "a/b.md" (List.mem_singleton.2 rfl)
  have hmem := (mem_list_iff hproper hdir).2 hlisted
  rw [hlist] at hmem
  obtain rfl := List.mem_singleton.1 hmem
  exact hfollowed.1 hresolve (by decide)

end Template
end NoteStencil
