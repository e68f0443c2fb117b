import NoteStencil.Proofs.Places

/-! Directories made on the way to a path, and what a write behind them touches. Each directory that is made was free
before, so nothing is lost; but a path that led nowhere may lead to something once it stands. -/

namespace NoteStencil

/-- The paths that are left when last components are taken away. -/
inductive Path.Above (p : Path) : Path → Prop
  | parent {a : Path} : p.parent = some a → Above p a
  | higher {a b : Path} : Above p a → a.parent = some b → Above p b

namespace FileSystem

variable {fs fs' fs'' : FileSystem} {p d a : Path} {q place directory : Place} {name : String}

/-! ### One directory -/

/-- The path names something that its directory does not have. -/
structure Makes (fs : FileSystem) (p : Path) (directory : Place) (name : String) : Prop where
  text : textFault p = none
  last : (steps p).getLast? = some name
  named : name ≠ "." ∧ name ≠ ".."
  short : name.utf8ByteSize ≤ nameLimit
  reached : Leads fs linkLimit (fs.start p) ((steps p).dropLast ++ ["."]) (.found directory)
  missing : fs.node? (directory ++ [name]) = none

theorem makeDirectory_eq_ok (h : fs.makeDirectory p = .ok fs') :
    ∃ directory name, Makes fs p directory name ∧ fs' = fs.put (directory ++ [name]) .directory := by
  unfold makeDirectory at h
  split at h
  · cases h
  · next htext =>
    split at h
    · cases h
    · next name hlast =>
      split at h
      · cases h
      · cases h
      · next directory hwalk =>
        split at h
        · cases h
        · next hnamed =>
          split at h
          · cases h
          · split at h
            · cases h
            · next hshort =>
              split at h
              · cases h
              · next hmissing =>
                cases h
                have hnone : fs.node? (directory ++ [name]) = none := by simpa using hmissing
                exact ⟨directory, name, ⟨htext, hlast, not_or.1 hnamed, Nat.le_of_not_lt hshort,
                  walk_eq_ok_iff.1 hwalk, hnone⟩, rfl⟩

theorem steps_of_getLast? (h : (steps p).getLast? = some name) : steps p = (steps p).dropLast ++ [name] := by
  obtain ⟨before, hbefore⟩ := List.getLast?_eq_some_iff.1 h
  rw [hbefore, List.dropLast_concat]

theorem Makes.grows (h : Makes fs p directory name) : Grows fs (fs.put (directory ++ [name]) .directory) :=
  grows_put_free h.missing

/-- What was made is what the path leads to now. -/
theorem Makes.place? (h : Makes fs p directory name) :
    (fs.put (directory ++ [name]) .directory).place? p = some (directory ++ [name]) := by
  have hthere : (fs.put (directory ++ [name]) .directory).node? (directory ++ [name]) = some .directory :=
    node?_put_self (ne_root_of_free h.missing)
  obtain ⟨hreached, hdirectory⟩ := (h.reached.grown h.grows fun _ _ he => by cases he).inside
  rw [place?_eq_some_iff, locate_eq_ok_iff, closedSteps, steps_of_getLast? h.last, List.append_assoc, h.grows.start]
  refine ⟨h.text, hreached.onward fun m => .down hdirectory h.named h.short hthere (fun _ he => by cases he) ?_⟩
  split
  · exact .here hthere .arrived
  · exact .arrived

theorem Makes.free_of_place? (h : Makes fs p directory name) (hp : fs.place? p = some q) : fs.node? q = none := by
  have heq := h.grows.place? hp
  rw [h.place?] at heq
  obtain rfl := Option.some.inj heq
  exact h.missing

/-- What is a directory already is refused, and not for want of the directory above it. -/
theorem makeDirectory_of_isDirectory (h : fs.isDirectory p = true) :
    ∃ fault, fs.makeDirectory p = .error fault ∧ fault ≠ .noEntry := by
  obtain ⟨q, hplace, hq⟩ := isDirectory_iff.1 h
  obtain ⟨htext, hleads⟩ := locate_eq_ok_iff.1 (place?_eq_some_iff.1 hplace)
  cases hmake : fs.makeDirectory p with
  | ok fs' =>
    obtain ⟨directory, name, hmakes, -⟩ := makeDirectory_eq_ok hmake
    rw [hmakes.free_of_place? hplace] at hq
    cases hq
  | error fault =>
    refine ⟨fault, rfl, ?_⟩
    unfold makeDirectory at hmake
    rw [htext] at hmake
    simp only at hmake
    split at hmake
    · cases hmake
      decide
    · next name hlast =>
      rw [closedSteps, steps_of_getLast? hlast, List.append_assoc] at hleads
      obtain ⟨directory, -, hbefore, hdirectory, -⟩ := hleads.before
      rw [(hbefore.onward fun m => .here hdirectory .arrived).walk_eq] at hmake
      simp only at hmake
      split at hmake
      · cases hmake
        decide
      · split at hmake
        · cases hmake
          decide
        · split at hmake
          · cases hmake
            decide
          · split at hmake
            · cases hmake
              decide
            · cases hmake

/-! ### A chain of directories -/

/-- Nothing is lost, and what is new are directories that paths of the kind lead to. -/
structure Made (kind : Path → Prop) (fs fs' : FileSystem) : Prop where
  grows : Grows fs fs'
  only : ∀ q, fs'.node? q = fs.node? q ∨
    fs.node? q = none ∧ fs'.node? q = some .directory ∧ ∃ a, kind a ∧ fs'.place? a = some q

variable {kind : Path → Prop}

theorem Made.refl (kind : Path → Prop) (fs : FileSystem) : Made kind fs fs := ⟨.refl fs, fun _ => .inl rfl⟩

theorem Made.trans (h : Made kind fs fs') (h' : Made kind fs' fs'') : Made kind fs fs'' := by
  refine ⟨h.grows.trans h'.grows, fun q => ?_⟩
  rcases h'.only q with hsame | ⟨hfree, hnew, ha⟩
  · rcases h.only q with hsame' | ⟨hfree, hnew, a, ha, hplace⟩
    · exact .inl (hsame.trans hsame')
    · exact .inr ⟨hfree, hsame.trans hnew, a, ha, h'.grows.place? hplace⟩
  · exact .inr ⟨h.grows.free hfree, hnew, ha⟩

theorem made_of_makeDirectory (h : fs.makeDirectory p = .ok fs') (hp : kind p) : Made kind fs fs' := by
  obtain ⟨directory, name, hmakes, rfl⟩ := makeDirectory_eq_ok h
  refine ⟨hmakes.grows, fun q => ?_⟩
  by_cases hq : q = directory ++ [name]
  · rw [hq]
    exact .inr ⟨hmakes.missing, node?_put_self (ne_root_of_free hmakes.missing), p, hp, hmakes.place?⟩
  · exact .inl (node?_put_of_ne hq)

/-- How a chain of directories, nearest first, can be made. -/
inductive Chained (fs : FileSystem) : List Path → Except Fault Unit → FileSystem → Prop
  | top : Chained fs [] (.ok ()) fs
  | empty {p : Path} {above : List Path} : p.isEmpty = true → Chained fs (p :: above) (.ok ()) fs
  | there {p : Path} {above : List Path} : fs.isDirectory p = true → Chained fs (p :: above) (.ok ()) fs
  | made {p : Path} {above : List Path} {fs' : FileSystem} : fs.makeDirectory p = .ok fs' →
      Chained fs (p :: above) (.ok ()) fs'
  | refused {p : Path} {above : List Path} (fault : Fault) : Chained fs (p :: above) (.error fault) fs
  | stopped {p : Path} {above : List Path} {fault : Fault} {fs' : FileSystem} : Chained fs above (.error fault) fs' →
      Chained fs (p :: above) (.error fault) fs'
  | thereBehind {p : Path} {above : List Path} {fs' : FileSystem} : fs.makeDirectory p = .error .noEntry →
      Chained fs above (.ok ()) fs' → fs'.isDirectory p = true → Chained fs (p :: above) (.ok ()) fs'
  | madeBehind {p : Path} {above : List Path} {fs' fs'' : FileSystem} : Chained fs above (.ok ()) fs' →
      fs'.makeDirectory p = .ok fs'' → Chained fs (p :: above) (.ok ()) fs''
  | refusedBehind {p : Path} {above : List Path} {fs' : FileSystem} (fault : Fault) : Chained fs above (.ok ()) fs' →
      Chained fs (p :: above) (.error fault) fs'

theorem chained_makeChain (fs : FileSystem) (chain : List Path) :
    Chained fs chain (fs.makeChain chain).1 (fs.makeChain chain).2 := by
  induction chain with
  | nil => exact .top
  | cons p above ih =>
    rw [makeChain]
    split
    · next hempty => exact .empty hempty
    · split
      · next hmake => exact .made hmake
      · next fault hmake =>
        split
        · next hfault =>
          rw [hfault] at hmake
          split
          · next habove =>
            rw [habove] at ih
            exact .stopped ih
          · next fs' habove =>
            rw [habove] at ih
            split
            · next hmake' => exact .madeBehind ih hmake'
            · split
              · next hdir => exact .thereBehind hmake ih hdir
              · exact .refusedBehind _ ih
        · split
          · next hdir => exact .there hdir
          · exact .refused fault

theorem Chained.made_all {chain : List Path} {r : Except Fault Unit} (h : Chained fs chain r fs')
    (hkind : ∀ a ∈ chain, kind a) : Made kind fs fs' := by
  induction h with
  | top | empty | there | refused => exact .refl kind fs
  | made hmake => exact made_of_makeDirectory hmake (hkind _ List.mem_cons_self)
  | stopped _ ih => exact ih fun a ha => hkind a (List.mem_cons_of_mem _ ha)
  | thereBehind _ _ _ ih => exact ih fun a ha => hkind a (List.mem_cons_of_mem _ ha)
  | madeBehind _ hmake ih =>
    have habove := ih fun a ha => hkind a (List.mem_cons_of_mem _ ha)
    exact habove.trans (made_of_makeDirectory hmake (hkind _ List.mem_cons_self))
  | refusedBehind _ _ ih => exact ih fun a ha => hkind a (List.mem_cons_of_mem _ ha)

theorem above_of_mem_chainAbove {n : Nat} (hd : p.Above d) (h : a ∈ chainAbove n d) : p.Above a := by
  induction n generalizing d with
  | zero => cases h
  | succ n ih =>
    rw [chainAbove, List.mem_cons] at h
    rcases h with rfl | h
    · exact hd
    · split at h
      · cases h
      · next b hb => exact ih (.higher hd hb) h

theorem chained_ensureDirectory (fs : FileSystem) (d : Path) :
    ∃ r, Chained fs (chainAbove (d.chars.length + 1) d) r (fs.ensureDirectory d).2 ∧
      ((fs.ensureDirectory d).1 = .ok () → r = .ok ()) := by
  have hchained := chained_makeChain fs (chainAbove (d.chars.length + 1) d)
  unfold ensureDirectory makeDirectories
  split
  · next after heq =>
    rw [heq] at hchained
    exact ⟨_, hchained, fun _ => rfl⟩
  · next fault after heq =>
    rw [heq] at hchained
    exact ⟨_, hchained, nofun⟩

theorem made_of_ensureDirectory (h : p.parent = some d) : Made p.Above fs (fs.ensureDirectory d).2 := by
  obtain ⟨r, hchained, -⟩ := chained_ensureDirectory fs d
  exact hchained.made_all fun a ha => above_of_mem_chainAbove (.parent h) ha

theorem made_of_ensureParent (fs : FileSystem) (p : Path) : Made p.Above fs (fs.ensureParent p).2 := by
  unfold ensureParent
  split
  · exact .refl _ fs
  · next d hd =>
    obtain ⟨hparent, -⟩ := Option.filter_eq_some_iff.1 hd
    exact made_of_ensureDirectory hparent

theorem ensureDirectory_of_isDirectory (h : fs.isDirectory d = true) : fs.ensureDirectory d = (.ok (), fs) := by
  obtain ⟨fault, hmake, hfault⟩ := makeDirectory_of_isDirectory h
  have hchain : fs.makeDirectories d = (.ok (), fs) := by
    rw [makeDirectories, chainAbove, makeChain]
    split
    · rfl
    · simp only [hmake, if_neg hfault]
  rw [ensureDirectory, hchain]

end FileSystem
end NoteStencil
