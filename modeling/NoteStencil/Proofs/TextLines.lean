import NoteStencil.Text.Lines

/-! Lines cut out of a text. Each starts at the front of the text or behind a line feed, and joined again they give
the text back but for a line feed at its end, as long as no carriage return was taken for part of a terminator. -/

namespace NoteStencil

section Pieces

variable {α : Type} [DecidableEq α] {t : α}

theorem cutAt_open {xs : List α} (h : t ∉ xs) (hne : xs ≠ []) : cutAt t xs = [(xs, false)] := by
  induction xs with
  | nil => exact absurd rfl hne
  | cons c rest ih =>
    have hc : c ≠ t := fun he => h (by simp [he])
    rw [cutAt, if_neg hc]
    cases rest with
    | nil => rfl
    | cons d more => rw [ih (fun hm => h (List.mem_cons_of_mem _ hm)) (by simp)]

theorem cutAt_closed {xs : List α} (rest : List α) (h : t ∉ xs) :
    cutAt t (xs ++ t :: rest) = (xs, true) :: cutAt t rest := by
  induction xs with
  | nil => simp [cutAt]
  | cons c more ih =>
    have hc : c ≠ t := fun he => h (by simp [he])
    rw [List.cons_append, cutAt, if_neg hc, ih fun hm => h (List.mem_cons_of_mem _ hm)]

theorem cutAt_ne_nil {xs : List α} (hne : xs ≠ []) : cutAt t xs ≠ [] := by
  cases xs with
  | nil => exact absurd rfl hne
  | cons c rest =>
    unfold cutAt
    split
    · simp
    · cases cutAt t rest <;> simp

/-- Every text is empty, without terminator, or a piece with its terminator before a shorter text. -/
theorem pieces_induction {motive : List α → Prop} (t : α) (blank : motive [])
    (last : ∀ xs, t ∉ xs → xs ≠ [] → motive xs)
    (closed : ∀ xs rest, t ∉ xs → motive rest → motive (xs ++ t :: rest)) (xs : List α) : motive xs := by
  induction hn : xs.length using Nat.strongRecOn generalizing xs with
  | ind n ih =>
    by_cases h : t ∈ xs
    · obtain ⟨as, bs, rfl, has⟩ := List.eq_append_cons_of_mem h
      exact closed as bs has (ih bs.length (by simp [← hn]; omega) bs rfl)
    · cases xs with
      | nil => exact blank
      | cons c rest => exact last _ h (by simp)

theorem mem_cutAt {xs : List α} {piece : List α × Bool} (h : piece ∈ cutAt t xs) :
    ∃ before after, xs = before ++ piece.1 ++ after ∧ (before = [] ∨ before.getLast? = some t) := by
  induction xs using pieces_induction t with
  | blank => cases h
  | last xs hopen hne =>
    rw [cutAt_open hopen hne, List.mem_singleton] at h
    exact ⟨[], [], by simp [h], .inl rfl⟩
  | closed xs rest hclosed ih =>
    rw [cutAt_closed rest hclosed] at h
    rcases List.mem_cons.1 h with rfl | h
    · exact ⟨[], t :: rest, rfl, .inl rfl⟩
    · obtain ⟨before, after, rfl, hbefore⟩ := ih h
      refine ⟨xs ++ t :: before, after, by simp, .inr ?_⟩
      rcases hbefore with rfl | hbefore <;> simp [List.getLast?_cons, *]

end Pieces

/-- Without a line feed at the end, if there is one. -/
def chomp (cs : List Char) : List Char := if cs.getLast? = some '\n' then cs.dropLast else cs

theorem chomp_append {xs ys : List Char} (h : ys ≠ []) : chomp (xs ++ ys) = xs ++ chomp ys := by
  unfold chomp
  rw [List.getLast?_append, List.dropLast_append_of_ne_nil h, List.getLast?_eq_some_getLast h, Option.some_or]
  split <;> rfl

theorem intercalate_cutAt (cs : List Char) : ['\n'].intercalate ((cutAt '\n' cs).map (·.1)) = chomp cs := by
  induction cs using pieces_induction '\n' with
  | blank => rfl
  | last cs hopen hne =>
    have hlast : cs.getLast? ≠ some '\n' := fun h => hopen (List.mem_of_getLast? h)
    simp [cutAt_open hopen hne, chomp, hlast]
  | closed cs rest hclosed ih =>
    rw [cutAt_closed rest hclosed, List.map_cons, chomp_append (by simp)]
    by_cases hrest : rest = []
    · simp [hrest, cutAt, chomp]
    · have hmap : (cutAt '\n' rest).map (·.1) ≠ [] := by simp [cutAt_ne_nil hrest]
      have hfeed : chomp (['\n'] ++ rest) = ['\n'] ++ chomp rest := chomp_append hrest
      rw [List.singleton_append] at hfeed
      rw [List.intercalate_cons_of_ne_nil hmap, ih, hfeed, List.append_assoc, List.singleton_append]

/-! ### Texts without carriage returns -/

theorem cutLines_eq {cs : List Char} (h : '\r' ∉ cs) : cutLines '\n' '\r' cs = (cutAt '\n' cs).map (·.1) := by
  refine List.map_congr_left fun piece hp => ?_
  obtain ⟨before, after, heq, -⟩ := mem_cutAt hp
  have hlast : piece.1.getLast? ≠ some '\r' := fun hr => h (by simp [heq, List.mem_of_getLast? hr])
  simp [withoutReturn, hlast]

theorem joinLines_textLines {text : String} (h : '\r' ∉ text.toList) :
    joinLines (textLines text) = String.ofList (chomp text.toList) := by
  apply String.toList_injective
  rw [joinLines, String.toList_intercalate, textLines, cutLines_eq h, List.map_map, ← intercalate_cutAt]
  simp [Function.comp_def]

end NoteStencil
