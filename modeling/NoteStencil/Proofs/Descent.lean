import NoteStencil.FileSystem.Listing
import NoteStencil.Proofs.Joined

/-! Walks below a directory, links followed. What a walk meets is what paths lead to that pass no link back to a directory
on the way, each path once. That the walk goes deep enough is counted: a link leads to a directory that is not on the way
yet, and a real step leads to one with fewer places below it. -/

namespace NoteStencil
namespace FileSystem

open NoteStencil.Path

/-- What every file system is like: a place is listed once, and its names are such as a directory can hold. -/
structure Proper (fs : FileSystem) : Prop where
  once : (fs.entries.map (·.1)).Nodup
  named : ∀ e ∈ fs.entries, ∀ name ∈ e.1, Named name

instance (fs : FileSystem) : Decidable fs.Proper :=
  decidable_of_iff ((fs.entries.map (·.1)).Nodup ∧ ∀ e ∈ fs.entries, ∀ name ∈ e.1, Named name)
    ⟨fun ⟨once, named⟩ => ⟨once, named⟩, fun h => ⟨h.once, h.named⟩⟩

/-- What stands at `q` and leads to `place` is no link back to a directory on the trail. -/
def Onward (fs : FileSystem) (trail : List Place) (q place : Place) : Prop :=
  ∀ target, fs.node? q = some (.link target) → fs.node? place = some .directory → place ∉ trail

/-- Names that lead down from a directory to a place. `trail` holds the places on the way, the last one first. -/
inductive Reached (fs : FileSystem) (root : Path) : List Place → List String → Place → Prop
  | top {place : Place} (there : fs.place? root = some place) : Reached fs root [place] [] place
  | down {trail : List Place} {names : List String} {here place : Place} {name : String}
      (above : Reached fs root trail names here) (named : Named name)
      (there : fs.place? (root.joinAll (names ++ [name])) = some place) (onward : fs.Onward trail (here ++ [name]) place) :
      Reached fs root (place :: trail) (names ++ [name]) place

variable {fs : FileSystem} {root : Path} {trail : List Place} {names ns : List String} {here place : Place} {name : String}
  {node : Node}

theorem Reached.place? (h : Reached fs root trail names place) : fs.place? (root.joinAll names) = some place := by
  cases h with
  | top there => exact there
  | down _ _ there => exact there

theorem Reached.named (h : Reached fs root trail names place) : ∀ name ∈ names, Named name := by
  induction h with
  | top => simp
  | down _ named _ _ ih =>
    intro other hother
    rcases List.mem_append.1 hother with hother | hother
    · exact ih other hother
    · rw [List.mem_singleton.1 hother]
      exact named

/-- A way down goes on from a directory, to what the name stands for there or along a link. -/
theorem Reached.inside (h : Reached fs root trail names here) (hname : Named name)
    (hplace : fs.place? (root.joinAll (names ++ [name])) = some place) :
    fs.node? here = some .directory ∧
      ∃ node, fs.node? (here ++ [name]) = some node ∧ ((∃ target, node = .link target) ∨ place = here ++ [name]) := by
  rw [joinAll_concat] at hplace
  obtain ⟨other, hother, hinside, node, hnode, hcase⟩ := place?_join (ne_empty_of_place? h.place?) hname hplace
  obtain rfl : here = other := Option.some.inj (h.place?.symm.trans hother)
  exact ⟨hinside, node, hnode, hcase⟩

/-! ### Entries -/

theorem mem_keys_of_node? {node : Node} (h : fs.node? place = some node) (hne : place ≠ []) :
    place ∈ fs.entries.map (·.1) := by
  rw [node?, if_neg hne] at h
  obtain ⟨before, after, hentries, -⟩ := List.lookup_eq_some_iff.1 h
  rw [hentries]
  simp

theorem mem_children_iff : name ∈ fs.children here ↔ here ++ [name] ∈ fs.entries.map (·.1) := by
  unfold children
  constructor
  · intro h
    obtain ⟨e, he, hname⟩ := List.mem_filterMap.1 h
    split at hname
    · next hparent =>
      obtain ⟨front, hfront⟩ := List.getLast?_eq_some_iff.1 hname
      rw [hfront, List.dropLast_concat] at hparent
      rw [← hparent, ← hfront]
      exact List.mem_map_of_mem he
    · cases hname
  · intro h
    obtain ⟨e, he, hplace⟩ := List.mem_map.1 h
    refine List.mem_filterMap.2 ⟨e, he, ?_⟩
    rw [hplace, List.dropLast_concat, if_pos rfl, List.getLast?_concat]

theorem Proper.named_child (h : fs.Proper) (hname : name ∈ fs.children here) : Named name := by
  obtain ⟨e, he, hplace⟩ := List.mem_map.1 (mem_children_iff.1 hname)
  exact h.named e he name (by rw [hplace]; simp)

theorem Proper.children_nodup (h : fs.Proper) (here : Place) : (fs.children here).Nodup := by
  refine List.pairwise_filterMap.2 ((List.pairwise_map.1 h.once).imp fun {a b} hne x hx y hy heq => hne ?_)
  split at hx
  · next ha =>
    split at hy
    · next hb =>
      obtain ⟨front, hfront⟩ := List.getLast?_eq_some_iff.1 hx
      obtain ⟨front', hfront'⟩ := List.getLast?_eq_some_iff.1 hy
      rw [hfront, List.dropLast_concat] at ha
      rw [hfront', List.dropLast_concat] at hb
      rw [hfront, hfront', ha, hb, heq]
    · cases hy
  · cases hx

/-! ### One name -/

variable {enter : List Place → List String → Place → List Visit}

/-- What a walk meets at a name: nothing, the name alone, or the name and what is below it. -/
inductive VisitedAt (fs : FileSystem) (root : Path) (enter : List Place → List String → Place → List Visit)
    (trail : List Place) (names : List String) (here : Place) (name : String) : List Visit → Prop
  | missing : VisitedAt fs root enter trail names here name []
  | refused : VisitedAt fs root enter trail names here name [.unreadable]
  | closed (astray : fs.place? (root.joinAll (names ++ [name])) = none) :
      VisitedAt fs root enter trail names here name [.entry (names ++ [name]), .unreadable]
  | met (onward : ∀ place, fs.place? (root.joinAll (names ++ [name])) = some place →
        fs.Onward trail (here ++ [name]) place) :
      VisitedAt fs root enter trail names here name [.entry (names ++ [name])]
  | entered {place : Place} (there : fs.place? (root.joinAll (names ++ [name])) = some place)
      (onward : fs.Onward trail (here ++ [name]) place) :
      VisitedAt fs root enter trail names here name
        (.entry (names ++ [name]) :: enter (place :: trail) (names ++ [name]) place)

theorem visitedAt (fs : FileSystem) (root : Path) (enter : List Place → List String → Place → List Visit)
    (trail : List Place) (names : List String) (here : Place) (name : String) :
    VisitedAt fs root enter trail names here name (fs.visitAt root enter trail names here name) := by
  have hreal {place : Place} {node : Node} (hnode : fs.node? (here ++ [name]) = some node)
      (hunlinked : ∀ target, node ≠ .link target) : fs.Onward trail (here ++ [name]) place := fun target hlink _ => by
    rw [hnode] at hlink
    exact absurd (Option.some.inj hlink) (hunlinked target)
  unfold visitAt
  simp only
  split
  · exact .missing
  · next hnode => exact .met fun _ _ => hreal hnode nofun
  · next hplace => exact .closed hplace
  · next hnode hplace => exact .entered hplace (hreal hnode nofun)
  · exact .refused
  · next place hnode hplace =>
    split
    · next hne =>
      refine .met fun other hother _ _ hdirectory => absurd ?_ hne
      rw [hplace] at hother
      exact (Option.some.inj hother) ▸ hdirectory
    · split
      · exact .refused
      · next hfresh => exact .entered hplace fun _ _ _ => hfresh

/-- Whatever the next place on a way down is, the walk meets it, and enters it if it is a directory. -/
theorem mem_visitAt (enter : List Place → List String → Place → List Visit) (h : Reached fs root trail names here)
    (hname : Named name) (hplace : fs.place? (root.joinAll (names ++ [name])) = some place)
    (honward : fs.Onward trail (here ++ [name]) place) :
    .entry (names ++ [name]) ∈ fs.visitAt root enter trail names here name ∧
      (fs.node? place = some .directory →
        enter (place :: trail) (names ++ [name]) place ⊆ fs.visitAt root enter trail names here name) := by
  obtain ⟨-, node, hnode, hcase⟩ := h.inside hname hplace
  unfold visitAt
  simp only [hnode, hplace]
  cases node with
  | file octets =>
    refine ⟨by simp, fun hdirectory => ?_⟩
    rcases hcase with ⟨target, htarget⟩ | rfl
    · cases htarget
    · rw [hnode] at hdirectory
      cases hdirectory
  | directory => exact ⟨by simp, fun _ => List.subset_cons_self _ _⟩
  | link target =>
    simp only
    by_cases hdirectory : fs.node? place = some .directory
    · rw [if_neg (by simp [hdirectory]), if_neg (honward target hnode hdirectory)]
      exact ⟨by simp, fun _ => List.subset_cons_self _ _⟩
    · rw [if_pos hdirectory]
      exact ⟨by simp, fun h => absurd h hdirectory⟩

/-! ### What a walk meets -/

theorem reached_of_mem_visits (hproper : fs.Proper) {depth : Nat} (h : Reached fs root trail names here)
    (hmem : .entry ns ∈ fs.visits root depth trail names here) (hplace : fs.place? (root.joinAll ns) = some place) :
    ∃ trail', Reached fs root trail' ns place := by
  induction depth generalizing trail names here with
  | zero => cases hmem
  | succ depth ih =>
    obtain ⟨name, hchild, hvisit⟩ := List.mem_flatMap.1 hmem
    have hname := hproper.named_child hchild
    have hmet := fs.visitedAt root (fs.visits root depth) trail names here name
    generalize fs.visitAt root (fs.visits root depth) trail names here name = met at hmet hvisit
    cases hmet with
    | missing => cases hvisit
    | refused => simp at hvisit
    | closed hastray =>
      obtain rfl : ns = names ++ [name] := by simpa using hvisit
      rw [hastray] at hplace
      cases hplace
    | met honward =>
      obtain rfl : ns = names ++ [name] := by simpa using hvisit
      exact ⟨_, .down h hname hplace (honward place hplace)⟩
    | entered hthere honward =>
      rcases List.mem_cons.1 hvisit with heq | hbelow
      · obtain rfl : ns = names ++ [name] := by simpa using heq
        obtain rfl := Option.some.inj (hthere.symm.trans hplace)
        exact ⟨_, .down h hname hthere honward⟩
      · exact ih (.down h hname hthere honward) hbelow

theorem names_of_mem_visitAt
    (hbelow : ∀ trail names here, .entry ns ∈ enter trail names here → ∃ name more, ns = names ++ name :: more)
    (hmem : .entry ns ∈ fs.visitAt root enter trail names here name) : ∃ more, ns = names ++ name :: more := by
  have hmet := fs.visitedAt root enter trail names here name
  generalize fs.visitAt root enter trail names here name = met at hmet hmem
  cases hmet with
  | missing => cases hmem
  | refused => simp at hmem
  | closed | met => exact ⟨[], by simpa using hmem⟩
  | entered =>
    rcases List.mem_cons.1 hmem with heq | hmem
    · exact ⟨[], by simpa using heq⟩
    · obtain ⟨next, more, rfl⟩ := hbelow _ _ _ hmem
      exact ⟨next :: more, by simp⟩

/-- What is met below a directory has a name of that directory behind the names before. -/
theorem names_of_mem_visits {depth : Nat} (hmem : .entry ns ∈ fs.visits root depth trail names here) :
    ∃ name more, ns = names ++ name :: more := by
  induction depth generalizing trail names here with
  | zero => cases hmem
  | succ depth ih =>
    obtain ⟨name, -, hvisit⟩ := List.mem_flatMap.1 hmem
    exact ⟨name, names_of_mem_visitAt (fun _ _ _ => ih) hvisit⟩

/-- Two stops of a walk that are not the same names. -/
def Visit.Apart (v w : Visit) : Prop := ∀ ns, v = .entry ns → w ≠ .entry ns

/-- A walk meets each way down once. -/
theorem visits_apart (hproper : fs.Proper) (root : Path) (depth : Nat) (trail : List Place) (names : List String)
    (here : Place) : (fs.visits root depth trail names here).Pairwise Visit.Apart := by
  induction depth generalizing trail names here with
  | zero => exact .nil
  | succ depth ih =>
    refine List.pairwise_flatMap.2 ⟨fun name _ => ?_,
      (hproper.children_nodup here).imp fun {a b} hne v hv w hw ns he he' => ?_⟩
    · have hmet := fs.visitedAt root (fs.visits root depth) trail names here name
      generalize fs.visitAt root (fs.visits root depth) trail names here name = met at hmet
      cases hmet with
      | missing => exact .nil
      | refused | met => exact List.pairwise_singleton _ _
      | closed => exact .cons (by simp [Visit.Apart]) (List.pairwise_singleton _ _)
      | entered =>
        refine .cons (fun w hw ns he he' => ?_) (ih _ _ _)
        obtain rfl := Visit.entry.inj he
        obtain ⟨next, more, hmore⟩ := names_of_mem_visits (he' ▸ hw)
        simp at hmore
    · obtain ⟨more, rfl⟩ := names_of_mem_visitAt (fun _ _ _ => names_of_mem_visits) (he ▸ hv)
      obtain ⟨more', heq⟩ := names_of_mem_visitAt (fun _ _ _ => names_of_mem_visits) (he' ▸ hw)
      exact hne (List.cons.inj (List.append_cancel_left heq)).1

/-! ### How deep a walk goes -/

/-- Places that are not on the trail. -/
def unmet (fs : FileSystem) (trail : List Place) : Nat := ([] :: fs.entries.map (·.1)).countP fun q => !trail.contains q

/-- Places below a place. -/
def deeper (fs : FileSystem) (here : Place) : Nat := (fs.entries.map (·.1)).countP fun q => here <+: q ∧ q ≠ here

/-- Room for a way down to go on: each link takes it to a place that is not on the trail, and each real step to a place
with fewer places below. -/
def room (fs : FileSystem) (trail : List Place) (here : Place) : Nat :=
  fs.unmet trail * (fs.entries.length + 2) + fs.deeper here

theorem countP_lt {α : Type} {p q : α → Bool} {xs : List α} {a : α} (hpq : ∀ x ∈ xs, p x = true → q x = true) (ha : a ∈ xs)
    (hp : p a = false) (hq : q a = true) : xs.countP p < xs.countP q := by
  induction xs with
  | nil => cases ha
  | cons x rest ih =>
    obtain ⟨hx, hrest⟩ := List.forall_mem_cons.1 hpq
    rcases List.mem_cons.1 ha with rfl | ha
    · have hle := List.countP_mono_left hrest
      rw [List.countP_cons_of_neg (by simp [hp]), List.countP_cons_of_pos hq]
      omega
    · have hlt := ih hrest ha
      cases hpx : p x with
      | false =>
        rw [List.countP_cons_of_neg (by simp [hpx])]
        exact Nat.lt_of_lt_of_le hlt (List.sublist_cons_self x rest).countP_le
      | true =>
        rw [List.countP_cons_of_pos hpx, List.countP_cons_of_pos (hx hpx)]
        omega

theorem unmet_cons_le (fs : FileSystem) (trail : List Place) (place : Place) :
    fs.unmet (place :: trail) ≤ fs.unmet trail := by
  refine List.countP_mono_left fun q _ hq => ?_
  rw [List.contains_cons, Bool.not_or, Bool.and_eq_true] at hq
  exact hq.2

theorem unmet_cons_lt (hnode : fs.node? place = some node) (hfresh : place ∉ trail) :
    fs.unmet (place :: trail) < fs.unmet trail := by
  have hmem : place ∈ [] :: fs.entries.map (·.1) := by
    by_cases hne : place = []
    · simp [hne]
    · exact List.mem_cons_of_mem _ (mem_keys_of_node? hnode hne)
  refine countP_lt (fun q _ hq => ?_) hmem (by simp) (by simpa using hfresh)
  rw [List.contains_cons, Bool.not_or, Bool.and_eq_true] at hq
  exact hq.2

theorem deeper_lt (hmem : here ++ [name] ∈ fs.entries.map (·.1)) : fs.deeper (here ++ [name]) < fs.deeper here := by
  refine countP_lt (fun q _ hq => ?_) hmem (by simp) (by simp)
  simp only [decide_eq_true_eq] at hq ⊢
  refine ⟨(List.prefix_append _ _).trans hq.1, ?_⟩
  rintro rfl
  have hlen := hq.1.length_le
  rw [List.length_append, List.length_singleton] at hlen
  omega

theorem deeper_le (fs : FileSystem) (here : Place) : fs.deeper here ≤ fs.entries.length :=
  Nat.le_trans List.countP_le_length (Nat.le_of_eq (List.length_map _))

theorem room_lt (hmem : here ++ [name] ∈ fs.entries.map (·.1)) (hnode : fs.node? place = some node)
    (hcase : place ∉ trail ∨ place = here ++ [name]) : fs.room (place :: trail) place < fs.room trail here := by
  unfold room
  rcases hcase with hfresh | rfl
  · have hdeeper := fs.deeper_le place
    have hunmet := Nat.mul_le_mul_right (fs.entries.length + 2) (Nat.succ_le_of_lt (unmet_cons_lt hnode hfresh))
    rw [Nat.succ_mul] at hunmet
    omega
  · have hunmet := Nat.mul_le_mul_right (fs.entries.length + 2) (fs.unmet_cons_le trail (here ++ [name]))
    have hdeeper := deeper_lt hmem
    omega

theorem room_le_depthBound (fs : FileSystem) (place : Place) : fs.room [place] place ≤ fs.depthBound := by
  have hunmet : fs.unmet [place] ≤ fs.entries.length + 1 :=
    Nat.le_trans List.countP_le_length (by simp)
  have hdeeper := fs.deeper_le place
  have hmul := Nat.mul_le_mul_right (fs.entries.length + 2) hunmet
  have hbound : fs.depthBound = (fs.entries.length + 1) * (fs.entries.length + 2) + (fs.entries.length + 2) :=
    Nat.succ_mul _ _
  unfold room
  omega

/-- The walk meets the end of every way down, and has the depth to go on from there. -/
theorem Reached.visited (h : Reached fs root trail names here) :
    .entry names ∈ fs.visitsBelow root ∧ (fs.node? here = some .directory →
      ∃ depth, fs.room trail here ≤ depth ∧ fs.visits root depth trail names here ⊆ fs.visitsBelow root) := by
  induction h with
  | @top place there =>
    unfold visitsBelow
    rw [there]
    exact ⟨List.mem_cons_self, fun _ => ⟨_, fs.room_le_depthBound place, List.subset_cons_self _ _⟩⟩
  | @down trail names here place name above named there onward ih =>
    -- the walk is in the directory above with room left, so it takes the name and goes on with less
    obtain ⟨hinside, node, hnode, hcase⟩ := above.inside named there
    obtain ⟨depth, hroom, hsub⟩ := ih.2 hinside
    have hmem := mem_keys_of_node? hnode (by simp)
    -- there is room here even when the place that follows is a file, since the name itself is below
    have hpos : 0 < depth := by
      have := deeper_lt hmem
      unfold room at hroom
      omega
    obtain ⟨depth, rfl⟩ := Nat.exists_eq_add_one.2 hpos
    have hat : fs.visitAt root (fs.visits root depth) trail names here name ⊆ fs.visitsBelow root :=
      fun _ hvisit => hsub (List.mem_flatMap.2 ⟨name, mem_children_iff.2 hmem, hvisit⟩)
    obtain ⟨hentry, hbelow⟩ := mem_visitAt (fs.visits root depth) above named there onward
    refine ⟨hat hentry, fun hdirectory => ⟨depth, ?_, fun _ hvisit => hat (hbelow hdirectory hvisit)⟩⟩
    have hlt := room_lt hmem hdirectory (hcase.imp_left fun ⟨target, hlink⟩ => onward target (hlink ▸ hnode) hdirectory)
    omega

/-! ### Markdown files -/

/-- The files listed are those that some way down leads to. -/
theorem mem_markdownBelow (hproper : fs.Proper) :
    names ∈ fs.markdownBelow root ↔ (∃ trail place, Reached fs root trail names place) ∧
      fs.isFile (root.joinAll names) = true ∧ (root.joinAll names).isMarkdown = true := by
  unfold markdownBelow
  constructor
  · intro h
    obtain ⟨visit, hvisit, heq⟩ := List.mem_filterMap.1 h
    cases visit with
    | unreadable => cases heq
    | entry ns =>
      obtain ⟨⟨hfile, hmarkdown⟩, rfl⟩ : (fs.isFile (root.joinAll ns) ∧ (root.joinAll ns).isMarkdown) ∧ ns = names := by
        simpa using heq
      obtain ⟨place, hplace⟩ : ∃ place, fs.place? (root.joinAll ns) = some place := by
        obtain ⟨place, -, hplace, -⟩ := isFile_iff.1 hfile
        exact ⟨place, hplace⟩
      refine ⟨?_, hfile, hmarkdown⟩
      unfold visitsBelow at hvisit
      split at hvisit
      · cases hvisit
      · next here hhere =>
        rcases List.mem_cons.1 hvisit with heq | hvisit
        · obtain rfl := Visit.entry.inj heq
          exact ⟨_, _, .top hhere⟩
        · obtain ⟨trail, hreached⟩ := reached_of_mem_visits hproper (.top hhere) hvisit hplace
          exact ⟨trail, place, hreached⟩
  · rintro ⟨⟨trail, place, hreached⟩, hfile, hmarkdown⟩
    exact List.mem_filterMap.2 ⟨_, hreached.visited.1, by simp [hfile, hmarkdown]⟩

theorem markdownBelow_nodup (hproper : fs.Proper) (root : Path) : (fs.markdownBelow root).Nodup := by
  have happart : (fs.visitsBelow root).Pairwise Visit.Apart := by
    unfold visitsBelow
    split
    · exact .nil
    · next place _ =>
      refine .cons (fun w hw ns he he' => ?_) (visits_apart hproper root _ _ _ place)
      obtain rfl := Visit.entry.inj he
      obtain ⟨name, more, hmore⟩ := names_of_mem_visits (he' ▸ hw)
      cases hmore
  refine List.pairwise_filterMap.2 (happart.imp fun {v w} hapart a ha b hb heq => ?_)
  subst heq
  cases v with
  | unreadable => cases ha
  | entry ns =>
    cases w with
    | unreadable => cases hb
    | entry ns' =>
      obtain ⟨-, ha⟩ := Option.ite_none_right_eq_some.1 ha
      obtain ⟨-, hb⟩ := Option.ite_none_right_eq_some.1 hb
      exact hapart ns rfl (congrArg Visit.entry (Option.some.inj (hb.trans ha.symm)))

end FileSystem
end NoteStencil
