import NoteStencil.Proofs.Destinations
import NoteStencil.Proofs.Parents

/-! Where every name lies in a directory, a directory that was just made is empty. So behind new directories a path that
never goes up with `..` finds nothing that was there before. -/

namespace NoteStencil
namespace FileSystem

variable {fs fs' : FileSystem} {p d a : Path} {q place directory : Place} {name : String}

/-- Whatever is there is in a directory. -/
def Rooted (fs : FileSystem) : Prop := ∀ q name, fs.node? (q ++ [name]) ≠ none → fs.node? q = some .directory

def Bare (fs : FileSystem) (q : Place) : Prop := ∀ name, fs.node? (q ++ [name]) = none

theorem Rooted.bare (h : fs.Rooted) (hq : fs.node? q = none) : fs.Bare q := by
  intro name
  cases hname : fs.node? (q ++ [name]) with
  | none => rfl
  | some node =>
    have hdirectory := h q name (by simp [hname])
    rw [hq] at hdirectory
    cases hdirectory

theorem Makes.rooted (h : Makes fs p directory name) (hr : fs.Rooted) :
    (fs.put (directory ++ [name]) .directory).Rooted := by
  intro q last hq
  by_cases heq : q ++ [last] = directory ++ [name]
  · obtain rfl : q = directory := List.append_inj_left' heq rfl
    exact h.grows.directory q h.reached.inside.2
  · rw [node?_put_of_ne heq] at hq
    exact h.grows.directory q (hr q last hq)

theorem Makes.bare (h : Makes fs p directory name) (hr : fs.Rooted) :
    (fs.put (directory ++ [name]) .directory).Bare (directory ++ [name]) := by
  intro last
  rw [node?_put_of_ne (by simp)]
  exact hr.bare h.missing last

theorem Leads.of_here {n : Nat} {rest : List String} {t : Target} (h : Leads fs n place ("." :: rest) t) :
    Leads fs n place rest t := by
  generalize hstep : "." = step at h
  cases h with
  | here _ onward => exact onward
  | up => exact absurd hstep (by decide)
  | free _ named => exact absurd hstep.symm named.1
  | down _ named => exact absurd hstep.symm named.1
  | follow _ named => exact absurd hstep.symm named.1

/-- From an empty directory a name leads to nothing. -/
theorem Leads.of_bare {n k : Nat} {more : List String} {t : Target} (hbare : fs.Bare place)
    (h : Leads fs n place (List.replicate k "." ++ name :: more) t) (hdot : name ≠ ".") (hup : name ≠ "..") :
    t = .absent place name := by
  induction k generalizing n with
  | zero =>
    cases h with
    | here => exact absurd rfl hdot
    | up => exact absurd rfl hup
    | free => rfl
    | down _ _ _ there =>
      rw [hbare name] at there
      cases there
    | follow _ _ _ there =>
      rw [hbare name] at there
      cases there
  | succ k ih =>
    rw [List.replicate_succ, List.cons_append] at h
    exact ih h.of_here

/-- What comes behind a directory on a path is walked from that directory. -/
theorem Leads.behind {more : List String} {t : Target} (hplace : fs.place? d = some q) (hmore : more ≠ [])
    (h : Leads fs linkLimit (fs.start d) (steps d ++ more) t) : ∃ m, Leads fs m q more t := by
  obtain ⟨-, hd⟩ := locate_eq_ok_iff.1 (place?_eq_some_iff.1 hplace)
  obtain ⟨step, rest, rfl⟩ := List.exists_cons_of_ne_nil hmore
  obtain ⟨place, m, hsteps, hdirectory, honward⟩ := h.before
  have hclosed : Leads fs linkLimit (fs.start d) (closedSteps d) (.found place) := by
    refine hsteps.onward fun m => ?_
    split
    · exact .here hdirectory .arrived
    · exact .arrived
  obtain rfl : q = place := Target.found.inj (hd.unique hclosed)
  exact ⟨m, honward⟩

/-- Behind an empty directory a path leads to nothing that is there, unless it goes up. -/
theorem target_of_bare {closing : List String} {t : Target} (hparent : p.parent = some d)
    (hplace : fs.place? d = some q) (hbare : fs.Bare q) (hup : ".." ∉ steps p)
    (h : Leads fs linkLimit (fs.start p) (steps p ++ closing) t) : ∃ name, t = .absent q name := by
  obtain ⟨habsolute, k, name, more, hsteps, hdot⟩ := steps_of_parent hparent (ne_empty_of_place? hplace)
  have hname : name ≠ ".." := fun he => hup (by simp [hsteps, he])
  have hstart : fs.start d = fs.start p := by rw [FileSystem.start, FileSystem.start, habsolute]
  rw [hsteps, List.append_assoc, List.append_assoc, List.cons_append, ← hstart] at h
  obtain ⟨m, hbehind⟩ := Leads.behind hplace (by simp) h
  exact ⟨name, hbehind.of_bare hbare hdot hname⟩

/-! ### Chains -/

theorem Chained.rooted {chain : List Path} {r : Except Fault Unit} (h : Chained fs chain r fs') (hr : fs.Rooted) :
    fs'.Rooted := by
  have hstep {fs₁ fs₂ : FileSystem} {p : Path} (hmake : fs₁.makeDirectory p = .ok fs₂) (hr : fs₁.Rooted) :
      fs₂.Rooted := by
    obtain ⟨directory, name, hmakes, rfl⟩ := makeDirectory_eq_ok hmake
    exact hmakes.rooted hr
  induction h with
  | top | empty | there | refused => exact hr
  | made hmake => exact hstep hmake hr
  | stopped _ ih => exact ih
  | thereBehind _ _ _ ih => exact ih
  | madeBehind _ hmake ih => exact hstep hmake ih
  | refusedBehind _ _ ih => exact ih

theorem chainAbove_eq_cons {n : Nat} {first : Path} {above : List Path} (h : chainAbove n p = first :: above) :
    first = p ∧ (above = [] ∨ ∃ m a, p.parent = some a ∧ above = chainAbove m a) := by
  cases n with
  | zero => cases h
  | succ n =>
    rw [chainAbove] at h
    obtain ⟨rfl, rfl⟩ := List.cons.inj h
    refine ⟨rfl, ?_⟩
    split
    · exact .inl rfl
    · next a ha => exact .inr ⟨n, a, ha, rfl⟩

theorem steps_of_isEmpty (h : p.isEmpty = true) : steps p = [] := by
  have hchars : p.chars = [] := List.isEmpty_iff.1 h
  rw [steps, hchars]
  rfl

theorem not_up_of_parent (hparent : p.parent = some a) (hup : ".." ∉ steps p) : ".." ∉ steps a := by
  cases hempty : a.isEmpty with
  | true => simp [steps_of_isEmpty hempty]
  | false =>
    obtain ⟨-, k, name, more, hsteps, -⟩ := steps_of_parent hparent hempty
    exact fun hmem => hup (hsteps ▸ List.mem_append_left _ hmem)

/-- A directory whose chain was made is there before, or is empty. -/
theorem Chained.same_or_bare {n : Nat} {r : Except Fault Unit} (h : Chained fs (chainAbove n p) r fs') (hok : r = .ok ())
    (hr : fs.Rooted) (hup : ".." ∉ steps p) : fs' = fs ∨ ∃ q, fs'.place? p = some q ∧ fs'.Bare q := by
  generalize hchain : chainAbove n p = chain at h
  induction h generalizing n p with
  | top | empty | there => exact .inl rfl
  | refused => cases hok
  | stopped => cases hok
  | refusedBehind => cases hok
  | made hmake =>
    obtain ⟨rfl, -⟩ := chainAbove_eq_cons hchain
    obtain ⟨directory, name, hmakes, rfl⟩ := makeDirectory_eq_ok hmake
    exact .inr ⟨_, hmakes.place?, hmakes.bare hr⟩
  | madeBehind habove hmake ih =>
    obtain ⟨rfl, -⟩ := chainAbove_eq_cons hchain
    obtain ⟨directory, name, hmakes, rfl⟩ := makeDirectory_eq_ok hmake
    exact .inr ⟨_, hmakes.place?, hmakes.bare (habove.rooted hr)⟩
  | @thereBehind first above fs' hmake habove hdir ih =>
    obtain ⟨rfl, hrest⟩ := chainAbove_eq_cons hchain
    -- the directory above was missing, so something was made for it, and nothing is in there
    have hne : fs' ≠ fs := fun he => by
      obtain ⟨fault, hfault, hnoEntry⟩ := makeDirectory_of_isDirectory (he ▸ hdir)
      rw [hmake] at hfault
      exact hnoEntry (Except.error.inj hfault).symm
    rcases hrest with rfl | ⟨m, a, hparent, rfl⟩
    · cases habove
      exact absurd rfl hne
    · rcases ih rfl (not_up_of_parent hparent hup) rfl with he | ⟨q, hplace, hbare⟩
      · exact absurd he hne
      · obtain ⟨r, hr', -⟩ := isDirectory_iff.1 hdir
        obtain ⟨-, hleads⟩ := locate_eq_ok_iff.1 (place?_eq_some_iff.1 hr')
        obtain ⟨name, hname⟩ := target_of_bare hparent hplace hbare hup hleads
        cases hname

/-- Where every name lies in a directory, a path without `..` finds no more behind new directories than before. -/
theorem steady_of_rooted (hr : fs.Rooted) (hup : ".." ∉ steps p) : fs.Steady p := by
  intro q hq hthere
  obtain ⟨after, hmade, hlands⟩ := destination?_eq_some_iff.1 hq
  have hgrows : Grows fs after := (opened_of_ensureParent hmade).grows
  obtain ⟨node, hnode⟩ := Option.ne_none_iff_exists'.1 fun hnone => hthere (hgrows.free hnone)
  have hplace := place?_of_landing? hlands hnode
  have hsame : after = fs ∨ ∃ d r, p.parent = some d ∧ after.place? d = some r ∧ after.Bare r := by
    unfold ensureParent at hmade
    split at hmade
    · cases hmade
      exact .inl rfl
    · next d hd =>
      obtain ⟨hparent, -⟩ := Option.filter_eq_some_iff.1 hd
      obtain ⟨result, hchained, hok⟩ := chained_ensureDirectory fs d
      rw [hmade] at hchained hok
      rcases hchained.same_or_bare (hok rfl) hr (not_up_of_parent hparent hup) with hsame | ⟨r, hr, hbare⟩
      · exact .inl hsame
      · exact .inr ⟨d, r, hparent, hr, hbare⟩
  rcases hsame with rfl | ⟨d, r, hparent, hd, hbare⟩
  · exact hplace
  · obtain ⟨-, hleads⟩ := locate_eq_ok_iff.1 (place?_eq_some_iff.1 hplace)
    obtain ⟨name, hname⟩ := target_of_bare hparent hd hbare hup hleads
    cases hname

/-- The directory of the path is there, or the path does not go up. -/
def Straight (fs : FileSystem) (p : Path) : Prop :=
  (∀ d, p.directory = some d → fs.isDirectory d = true) ∨ fs.Rooted ∧ ".." ∉ steps p

theorem Straight.steady (h : fs.Straight p) : fs.Steady p := by
  rcases h with hdir | ⟨hr, hup⟩
  · exact steady_of_directory hdir
  · exact steady_of_rooted hr hup

end FileSystem
end NoteStencil
