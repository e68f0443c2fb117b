import NoteStencil.FileSystem.Store

/-! Where paths lead, and what a write changes. A walk is told step by step, so that what it met is there when something
is added to the files: a path that leads to a place goes on leading there, and one that leads to a free name leads to
what is put there. -/

namespace NoteStencil
namespace FileSystem

/-- Where something is, or would be if it were made. -/
def Target.place : Target → Place
  | .found place => place
  | .absent directory name => directory ++ [name]

/-! ### Nodes -/

theorem lookup_putEntry (place q : Place) (node : Node) (entries : List (Place × Node)) :
    (putEntry place node entries).lookup q = if q = place then some node else entries.lookup q := by
  induction entries with
  | nil =>
    by_cases h : q = place
    · simp [putEntry, h]
    · have hq : (q == place) = false := by simpa using h
      simp [putEntry, List.lookup_cons, h, hq]
  | cons e rest ih =>
    obtain ⟨key, held⟩ := e
    unfold putEntry
    by_cases he : key = place
    · rw [if_pos he]
      by_cases h : q = place
      · simp [h]
      · have hq : (q == key) = false := by simpa [he] using h
        have hq' : (q == place) = false := by simpa using h
        simp [List.lookup_cons, h, hq, hq']
    · rw [if_neg he]
      by_cases hq : q = key
      · have hne : q ≠ place := fun h => he (hq ▸ h)
        simp [hq, he]
      · have hq' : (q == key) = false := by simpa using hq
        simp only [List.lookup_cons, hq', ih]

variable {fs fs' fs'' : FileSystem} {place q : Place} {node : Node}

theorem node?_root (fs : FileSystem) : fs.node? [] = some .directory := rfl

theorem node?_put_self (h : place ≠ []) : (fs.put place node).node? place = some node := by
  rw [node?, if_neg h, put, lookup_putEntry, if_pos rfl]

theorem node?_put_of_ne (h : q ≠ place) : (fs.put place node).node? q = fs.node? q := by
  unfold node?
  split
  · rfl
  · rw [put, lookup_putEntry, if_neg h]

theorem ne_root_of_free (h : fs.node? q = none) : q ≠ [] := fun he => by
  rw [he, node?_root] at h
  cases h

theorem ne_root_of_file {octets : List UInt8} (h : fs.node? q = some (.file octets)) : q ≠ [] := fun he => by
  rw [he, node?_root] at h
  cases h

/-- Nothing is gone: directories and links stay as they are, and a file stays a file. -/
structure Grows (fs fs' : FileSystem) : Prop where
  workdir : fs'.workdir = fs.workdir
  directory : ∀ q, fs.node? q = some .directory → fs'.node? q = some .directory
  link : ∀ q target, fs.node? q = some (.link target) → fs'.node? q = some (.link target)
  file : ∀ q octets, fs.node? q = some (.file octets) → ∃ octets', fs'.node? q = some (.file octets')

theorem Grows.refl (fs : FileSystem) : Grows fs fs := ⟨rfl, fun _ => id, fun _ _ => id, fun _ octets h => ⟨octets, h⟩⟩

theorem Grows.trans (h : Grows fs fs') (h' : Grows fs' fs'') : Grows fs fs'' := by
  refine ⟨h'.workdir.trans h.workdir, fun q hq => h'.directory q (h.directory q hq),
    fun q t hq => h'.link q t (h.link q t hq), fun q octets hq => ?_⟩
  obtain ⟨octets', hq'⟩ := h.file q octets hq
  exact h'.file q octets' hq'

theorem Grows.free (h : Grows fs fs') (hq : fs'.node? q = none) : fs.node? q = none := by
  cases hnode : fs.node? q with
  | none => rfl
  | some node =>
    have hsome : ∃ node', fs'.node? q = some node' := by
      cases node with
      | directory => exact ⟨_, h.directory q hnode⟩
      | link target => exact ⟨_, h.link q target hnode⟩
      | file octets =>
        obtain ⟨octets', hq'⟩ := h.file q octets hnode
        exact ⟨_, hq'⟩
    obtain ⟨node', hq'⟩ := hsome
    rw [hq] at hq'
    cases hq'

theorem grows_put_free (h : fs.node? place = none) : Grows fs (fs.put place node) := by
  have hne {q : Place} {n : Node} (hq : fs.node? q = some n) : q ≠ place := fun he => by
    rw [he, h] at hq
    cases hq
  refine ⟨rfl, fun q hq => ?_, fun q target hq => ?_, fun q octets hq => ⟨octets, ?_⟩⟩
  · rwa [node?_put_of_ne (hne hq)]
  · rwa [node?_put_of_ne (hne hq)]
  · rwa [node?_put_of_ne (hne hq)]

theorem grows_put_file {old : List UInt8} (h : fs.node? place = some (.file old)) (octets : List UInt8) :
    Grows fs (fs.put place (.file octets)) := by
  have hne {q : Place} {n : Node} (hq : fs.node? q = some n) (hn : ∀ a, n ≠ .file a) : q ≠ place := fun he => by
    rw [he, h] at hq
    exact hn old (Option.some.inj hq).symm
  refine ⟨rfl, fun q hq => ?_, fun q target hq => ?_, fun q a hq => ?_⟩
  · rwa [node?_put_of_ne (hne hq nofun)]
  · rwa [node?_put_of_ne (hne hq nofun)]
  · by_cases hq' : q = place
    · rw [hq']
      exact ⟨octets, node?_put_self (ne_root_of_file h)⟩
    · exact ⟨a, by rwa [node?_put_of_ne hq']⟩

/-! ### Walks -/

/-- A walk that is not refused, with at most so many links still to follow. -/
inductive Leads (fs : FileSystem) : Nat → Place → List String → Target → Prop
  | arrived {n : Nat} {at_ : Place} : Leads fs n at_ [] (.found at_)
  | here {n : Nat} {at_ : Place} {rest : List String} {t : Target} (inside : fs.node? at_ = some .directory)
      (onward : Leads fs n at_ rest t) : Leads fs n at_ ("." :: rest) t
  | up {n : Nat} {at_ : Place} {rest : List String} {t : Target} (inside : fs.node? at_ = some .directory)
      (onward : Leads fs n at_.dropLast rest t) : Leads fs n at_ (".." :: rest) t
  | free {n : Nat} {at_ : Place} {step : String} (inside : fs.node? at_ = some .directory)
      (named : step ≠ "." ∧ step ≠ "..") (short : step.utf8ByteSize ≤ nameLimit)
      (missing : fs.node? (at_ ++ [step]) = none) : Leads fs n at_ [step] (.absent at_ step)
  | down {n : Nat} {at_ : Place} {step : String} {rest : List String} {t : Target} {node : Node}
      (inside : fs.node? at_ = some .directory) (named : step ≠ "." ∧ step ≠ "..")
      (short : step.utf8ByteSize ≤ nameLimit) (there : fs.node? (at_ ++ [step]) = some node)
      (unlinked : ∀ target, node ≠ .link target) (onward : Leads fs n (at_ ++ [step]) rest t) :
      Leads fs n at_ (step :: rest) t
  | follow {n : Nat} {at_ : Place} {step : String} {rest : List String} {t : Target} {target : Path}
      (inside : fs.node? at_ = some .directory) (named : step ≠ "." ∧ step ≠ "..")
      (short : step.utf8ByteSize ≤ nameLimit) (there : fs.node? (at_ ++ [step]) = some (.link target))
      (onward : Leads fs n (if target.isAbsolute then [] else at_) (closedSteps target ++ rest) t) :
      Leads fs (n + 1) at_ (step :: rest) t

/-- The walk up to the next link, where what is beyond the link is known. -/
theorem leads_of_walkSteps {n : Nat} {follow : Place → List String → Except Fault Target} {at_ : Place}
    {steps : List String} {t : Target}
    (hfollow : ∀ q rest, follow q rest = .ok t → ∃ m, n = m + 1 ∧ Leads fs m q rest t)
    (h : fs.walkSteps follow at_ steps = .ok t) : Leads fs n at_ steps t := by
  induction steps generalizing at_ with
  | nil =>
    cases h
    exact .arrived
  | cons step rest ih =>
    unfold walkSteps at h
    split at h
    · cases h
    · next hdir =>
      have inside : fs.node? at_ = some .directory := Decidable.not_not.1 hdir
      split at h
      · next hdot =>
        rw [hdot]
        exact .here inside (ih h)
      · next hdot =>
        split at h
        · next hup =>
          rw [hup]
          exact .up inside (ih h)
        · next hup =>
          split at h
          · cases h
          · next hlong =>
            have short := Nat.le_of_not_lt hlong
            split at h
            · next hnone =>
              split at h
              · next hrest =>
                cases h
                rw [hrest]
                exact .free inside ⟨hdot, hup⟩ short hnone
              · cases h
            · next target hlink =>
              obtain ⟨m, rfl, hm⟩ := hfollow _ _ h
              exact .follow inside ⟨hdot, hup⟩ short hlink hm
            · next node hunlinked hnode =>
              exact .down inside ⟨hdot, hup⟩ short hnode (fun target he => hunlinked target (he ▸ rfl)) (ih h)

theorem leads_of_walk {n : Nat} {at_ : Place} {steps : List String} {t : Target} (h : fs.walk n at_ steps = .ok t) :
    Leads fs n at_ steps t := by
  induction n generalizing at_ steps with
  | zero =>
    rw [walk] at h
    refine leads_of_walkSteps (fun q rest hq => ?_) h
    cases hq
  | succ n ih =>
    rw [walk] at h
    exact leads_of_walkSteps (fun q rest hq => ⟨n, rfl, ih hq⟩) h

theorem walk_cons {n : Nat} {at_ : Place} (step : String) (rest : List String)
    (inside : fs.node? at_ = some .directory) :
    fs.walk n at_ (step :: rest) =
      if step = "." then fs.walk n at_ rest
      else if step = ".." then fs.walk n at_.dropLast rest
      else if nameLimit < step.utf8ByteSize then .error .nameTooLong
      else match fs.node? (at_ ++ [step]) with
        | none => if rest = [] then .ok (.absent at_ step) else .error .noEntry
        | some (.link target) => match n with
          | 0 => .error .tooManyLinks
          | n + 1 => fs.walk n (if target.isAbsolute then [] else at_) (closedSteps target ++ rest)
        | some _ => fs.walk n (at_ ++ [step]) rest := by
  cases n <;> exact if_neg (Decidable.not_not.2 inside)

theorem Leads.walk_eq {n : Nat} {at_ : Place} {steps : List String} {t : Target} (h : Leads fs n at_ steps t) :
    fs.walk n at_ steps = .ok t := by
  induction h with
  | @arrived n at_ => cases n <;> rfl
  | here inside _ ih => rw [walk_cons _ _ inside, if_pos rfl, ih]
  | up inside _ ih => rw [walk_cons _ _ inside, if_neg (by decide), if_pos rfl, ih]
  | free inside named short missing =>
    rw [walk_cons _ _ inside, if_neg named.1, if_neg named.2, if_neg (Nat.not_lt.2 short), missing]
    rfl
  | @down n at_ step rest t node inside named short there unlinked _ ih =>
    rw [walk_cons _ _ inside, if_neg named.1, if_neg named.2, if_neg (Nat.not_lt.2 short), there]
    cases node with
    | link target => exact absurd rfl (unlinked target)
    | directory => exact ih
    | file octets => exact ih
  | follow inside named short there _ ih =>
    rw [walk_cons _ _ inside, if_neg named.1, if_neg named.2, if_neg (Nat.not_lt.2 short), there]
    exact ih

theorem walk_eq_ok_iff {n : Nat} {at_ : Place} {steps : List String} {t : Target} :
    fs.walk n at_ steps = .ok t ↔ Leads fs n at_ steps t := ⟨leads_of_walk, Leads.walk_eq⟩

theorem Leads.unique {n : Nat} {at_ : Place} {steps : List String} {t t' : Target} (h : Leads fs n at_ steps t)
    (h' : Leads fs n at_ steps t') : t = t' := by
  have heq := h.walk_eq
  rw [h'.walk_eq] at heq
  exact (Except.ok.inj heq).symm

/-- A target stays where it is; at a free name there may now be something that is no link. -/
theorem Leads.grown {n : Nat} {at_ : Place} {steps : List String} {t : Target} (h : Leads fs n at_ steps t)
    (hg : Grows fs fs')
    (hfree : ∀ directory name, t = .absent directory name →
      ∃ node, fs'.node? (directory ++ [name]) = some node ∧ ∀ target, node ≠ .link target) :
    Leads fs' n at_ steps (.found t.place) := by
  induction h with
  | arrived => exact .arrived
  | here inside _ ih => exact .here (hg.directory _ inside) (ih hfree)
  | up inside _ ih => exact .up (hg.directory _ inside) (ih hfree)
  | free inside named short _ =>
    obtain ⟨node, hnode, hunlinked⟩ := hfree _ _ rfl
    exact .down (hg.directory _ inside) named short hnode hunlinked .arrived
  | @down _ _ _ _ _ node inside named short there unlinked _ ih =>
    cases node with
    | link target => exact absurd rfl (unlinked target)
    | directory => exact .down (hg.directory _ inside) named short (hg.directory _ there) nofun (ih hfree)
    | file octets =>
      obtain ⟨octets', hnode⟩ := hg.file _ _ there
      exact .down (hg.directory _ inside) named short hnode nofun (ih hfree)
  | follow inside named short there _ ih =>
    exact .follow (hg.directory _ inside) named short (hg.link _ _ there) (ih hfree)

theorem Leads.free_of_absent {n : Nat} {at_ directory : Place} {steps : List String} {name : String}
    (h : Leads fs n at_ steps (.absent directory name)) : fs.node? (directory ++ [name]) = none := by
  generalize ht : Target.absent directory name = t at h
  induction h with
  | arrived => cases ht
  | here _ _ ih => exact ih ht
  | up _ _ ih => exact ih ht
  | free _ _ _ missing =>
    cases ht
    exact missing
  | down _ _ _ _ _ _ ih => exact ih ht
  | follow _ _ _ _ _ ih => exact ih ht

/-- From where a walk arrives, another can go on. -/
theorem Leads.onward {n : Nat} {at_ place : Place} {steps more : List String} {t : Target}
    (h : Leads fs n at_ steps (.found place)) (hmore : ∀ m, Leads fs m place more t) :
    Leads fs n at_ (steps ++ more) t := by
  generalize htarget : Target.found place = target at h
  induction h with
  | arrived =>
    cases htarget
    exact hmore _
  | here inside _ ih => exact .here inside (ih htarget)
  | up inside _ ih => exact .up inside (ih htarget)
  | free => cases htarget
  | down inside named short there unlinked _ ih => exact .down inside named short there unlinked (ih htarget)
  | follow inside named short there _ ih =>
    have hgoes := ih htarget
    rw [List.append_assoc] at hgoes
    exact .follow inside named short there hgoes

/-- A walk that goes on from somewhere is inside a directory there. -/
theorem Leads.before {n : Nat} {at_ : Place} {steps more : List String} {step : String} {t : Target}
    (h : Leads fs n at_ (steps ++ step :: more) t) :
    ∃ place m, Leads fs n at_ steps (.found place) ∧ fs.node? place = some .directory ∧
      Leads fs m place (step :: more) t := by
  generalize hsteps : steps ++ step :: more = whole at h
  induction h generalizing steps with
  | arrived => simp at hsteps
  | @here n at_ rest _ inside onward ih =>
    cases steps with
    | nil =>
      obtain ⟨rfl, rfl⟩ := List.cons.inj hsteps
      exact ⟨at_, n, .arrived, inside, .here inside onward⟩
    | cons first steps =>
      obtain ⟨rfl, hrest⟩ := List.cons.inj hsteps
      obtain ⟨place, m, hplace, hmore⟩ := ih hrest
      exact ⟨place, m, .here inside hplace, hmore⟩
  | @up n at_ rest _ inside onward ih =>
    cases steps with
    | nil =>
      obtain ⟨rfl, rfl⟩ := List.cons.inj hsteps
      exact ⟨at_, n, .arrived, inside, .up inside onward⟩
    | cons first steps =>
      obtain ⟨rfl, hrest⟩ := List.cons.inj hsteps
      obtain ⟨place, m, hplace, hmore⟩ := ih hrest
      exact ⟨place, m, .up inside hplace, hmore⟩
  | @free n at_ last inside named short missing =>
    cases steps with
    | nil =>
      obtain ⟨rfl, rfl⟩ := List.cons.inj hsteps
      exact ⟨at_, n, .arrived, inside, .free inside named short missing⟩
    | cons first steps => simp at hsteps
  | @down n at_ next rest _ node inside named short there unlinked onward ih =>
    cases steps with
    | nil =>
      obtain ⟨rfl, rfl⟩ := List.cons.inj hsteps
      exact ⟨at_, n, .arrived, inside, .down inside named short there unlinked onward⟩
    | cons first steps =>
      obtain ⟨rfl, hrest⟩ := List.cons.inj hsteps
      obtain ⟨place, m, hplace, hmore⟩ := ih hrest
      exact ⟨place, m, .down inside named short there unlinked hplace, hmore⟩
  | @follow n at_ next rest _ target inside named short there onward ih =>
    cases steps with
    | nil =>
      obtain ⟨rfl, rfl⟩ := List.cons.inj hsteps
      exact ⟨at_, n + 1, .arrived, inside, .follow inside named short there onward⟩
    | cons first steps =>
      obtain ⟨rfl, rfl⟩ := List.cons.inj hsteps
      obtain ⟨place, m, hplace, hmore⟩ := @ih (closedSteps target ++ steps) (by simp)
      exact ⟨place, m, .follow inside named short there hplace, hmore⟩

theorem Leads.inside {n : Nat} {at_ place : Place} {steps : List String}
    (h : Leads fs n at_ (steps ++ ["."]) (.found place)) :
    Leads fs n at_ steps (.found place) ∧ fs.node? place = some .directory := by
  obtain ⟨reached, m, hsteps, hdirectory, hdot⟩ := h.before
  have hstays : Leads fs m reached ["."] (.found reached) := .here hdirectory .arrived
  obtain rfl : place = reached := Target.found.inj (hdot.unique hstays)
  exact ⟨hsteps, hdirectory⟩

/-! ### Paths -/

variable {p : Path} {t : Target}

theorem locate_eq_ok_iff :
    fs.locate p = .ok t ↔ textFault p = none ∧ Leads fs linkLimit (fs.start p) (closedSteps p) t := by
  unfold locate
  cases textFault p with
  | some fault => simp
  | none => simp [walk_eq_ok_iff]

theorem place?_eq_some_iff : fs.place? p = some q ↔ fs.locate p = .ok (.found q) := by
  unfold place?
  split <;> simp_all

theorem ne_empty_of_place? (h : fs.place? p = some q) : p.isEmpty = false := by
  obtain ⟨htext, -⟩ := locate_eq_ok_iff.1 (place?_eq_some_iff.1 h)
  cases hempty : p.isEmpty with
  | false => rfl
  | true =>
    rw [textFault, hempty] at htext
    split at htext <;> cases htext

theorem Grows.start (h : Grows fs fs') (p : Path) : fs'.start p = fs.start p := by
  rw [FileSystem.start, h.workdir, FileSystem.start]

theorem Grows.place? (h : Grows fs fs') (hp : fs.place? p = some q) : fs'.place? p = some q := by
  obtain ⟨htext, hleads⟩ := locate_eq_ok_iff.1 (place?_eq_some_iff.1 hp)
  rw [place?_eq_some_iff, locate_eq_ok_iff, h.start]
  exact ⟨htext, hleads.grown h nofun⟩

theorem isDirectory_iff : fs.isDirectory p = true ↔ ∃ q, fs.place? p = some q ∧ fs.node? q = some .directory := by
  unfold isDirectory isAt
  cases fs.place? p with
  | none => simp
  | some q =>
    cases hq : fs.node? q with
    | none => simp [hq]
    | some node => cases node <;> simp [hq]

theorem isFile_iff : fs.isFile p = true ↔ ∃ q octets, fs.place? p = some q ∧ fs.node? q = some (.file octets) := by
  unfold isFile isAt
  cases fs.place? p with
  | none => simp
  | some q =>
    cases hq : fs.node? q with
    | none => simp [hq]
    | some node => cases node <;> simp [hq]

/-- A path that asks for no directory. -/
structure EndsInName (p : Path) : Prop where
  unslashed : endsInSlash p = false
  named : ∃ name, (steps p).getLast? = some name ∧ name ≠ "." ∧ name ≠ ".."

theorem writeTarget_eq_ok_iff :
    fs.writeTarget p = .ok t ↔ textFault p = none ∧ EndsInName p ∧ Leads fs linkLimit (fs.start p) (steps p) t := by
  unfold writeTarget
  cases htext : textFault p with
  | some fault => simp
  | none =>
    simp only
    split
    · next hends =>
      have hnot : ¬ EndsInName p := fun ⟨hslash, name, hname, hdot, hup⟩ => by
        simp [hslash, hname, hdot, hup] at hends
      constructor
      · intro h
        split at h <;> cases h
      · exact fun h => absurd h.2.1 hnot
    · next hends =>
      obtain ⟨hslash, hlast, hdot, hup⟩ : endsInSlash p = false ∧ (steps p).getLast? ≠ none ∧
          (steps p).getLast? ≠ some "." ∧ (steps p).getLast? ≠ some ".." := by simpa [not_or] using hends
      obtain ⟨name, hname⟩ := Option.ne_none_iff_exists'.1 hlast
      have hnamed : EndsInName p := ⟨hslash, name, hname, fun he => hdot (he ▸ hname), fun he => hup (he ▸ hname)⟩
      simp [walk_eq_ok_iff, hnamed]

theorem EndsInName.closedSteps_eq (h : EndsInName p) : closedSteps p = steps p := by
  simp [closedSteps, h.unslashed]

theorem EndsInName.fileName (h : EndsInName p) : ∃ name, p.fileName = some name := by
  obtain ⟨name, hlast, hhere, hup⟩ := h.named
  obtain ⟨front, hsteps⟩ := List.getLast?_eq_some_iff.1 hlast
  obtain ⟨before, last, hpieces, -, hname⟩ := List.map_eq_append_iff.1 hsteps
  obtain ⟨piece, rfl, rfl⟩ := List.map_eq_singleton_iff.1 hname
  have hdot : piece ≠ ['.'] := fun he => hhere (by rw [he])
  have hdots : piece ≠ ['.', '.'] := fun he => hup (by rw [he])
  have hne : piece ≠ [] := by
    have hmem : piece ∈ (Path.slashPieces p.chars).filter (· ≠ []) := by rw [hpieces]; simp
    simpa using (List.mem_filter.1 hmem).2
  -- what names something is the steps without `.`, and the last step is none
  have hfilter : (Path.slashPieces p.chars).filter (!Path.isFiller ·) = before.filter (!Path.isFiller ·) ++ [piece] := by
    have hsplit : (Path.slashPieces p.chars).filter (!Path.isFiller ·) =
        ((Path.slashPieces p.chars).filter (· ≠ [])).filter (!Path.isFiller ·) := by
      rw [List.filter_filter]
      refine List.filter_congr fun q _ => ?_
      by_cases hq : q = [] <;> simp [hq, Path.isFiller]
    rw [hsplit, hpieces, List.filter_append]
    simp [Path.isFiller, hdot, hne]
  refine ⟨String.ofList piece, ?_⟩
  simp only [Path.fileName, Path.components, hfilter, List.map_append, List.map_singleton, ← List.append_assoc,
    List.getLast?_concat, Path.pieceComponent, if_neg hdots]

theorem locate_of_writeTarget (h : fs.writeTarget p = .ok t) : fs.locate p = .ok t := by
  obtain ⟨htext, hends, hleads⟩ := writeTarget_eq_ok_iff.1 h
  rw [locate_eq_ok_iff, hends.closedSteps_eq]
  exact ⟨htext, hleads⟩

/-! ### Writing -/

/-- The place whose file a write to the path makes or replaces. -/
def landing? (fs : FileSystem) (p : Path) : Option Place :=
  match fs.writeTarget p with
  | .error _ => none
  | .ok (.absent directory name) => some (directory ++ [name])
  | .ok (.found place) => match fs.node? place with
    | some (.file _) => some place
    | _ => none

theorem landing?_cases (h : fs.landing? p = some q) :
    (fs.writeTarget p = .ok (.found q) ∧ ∃ octets, fs.node? q = some (.file octets)) ∨
      ∃ directory name, fs.writeTarget p = .ok (.absent directory name) ∧ q = directory ++ [name] ∧
        fs.node? q = none := by
  unfold landing? at h
  split at h
  · cases h
  · next directory name ht =>
    cases h
    exact .inr ⟨directory, name, ht, rfl, (writeTarget_eq_ok_iff.1 ht).2.2.free_of_absent⟩
  · next place ht =>
    split at h
    · next octets hnode =>
      cases h
      exact .inl ⟨ht, octets, hnode⟩
    · cases h

theorem landing?_of_writeTarget {octets : List UInt8} (ht : fs.writeTarget p = .ok (.found q))
    (hq : fs.node? q = some (.file octets)) : fs.landing? p = some q := by
  rw [landing?, ht]
  simp only [hq]

theorem landing?_grown {octets : List UInt8} (h : fs.landing? p = some q) (hg : Grows fs fs')
    (hq : fs'.node? q = some (.file octets)) : fs'.landing? p = some q := by
  refine landing?_of_writeTarget (writeTarget_eq_ok_iff.2 ?_) hq
  rw [hg.start]
  rcases landing?_cases h with ⟨ht, -⟩ | ⟨directory, name, ht, rfl, -⟩
  · obtain ⟨htext, hends, hleads⟩ := writeTarget_eq_ok_iff.1 ht
    exact ⟨htext, hends, hleads.grown hg nofun⟩
  · obtain ⟨htext, hends, hleads⟩ := writeTarget_eq_ok_iff.1 ht
    refine ⟨htext, hends, hleads.grown hg fun d n he => ?_⟩
    cases he
    exact ⟨_, hq, nofun⟩

theorem ne_root_of_landing? (h : fs.landing? p = some q) : q ≠ [] := by
  rcases landing?_cases h with ⟨-, octets, hq⟩ | ⟨-, -, -, -, hq⟩
  · exact ne_root_of_file hq
  · exact ne_root_of_free hq

theorem grows_put_landing (h : fs.landing? p = some q) (octets : List UInt8) : Grows fs (fs.put q (.file octets)) := by
  rcases landing?_cases h with ⟨-, old, hq⟩ | ⟨-, -, -, -, hq⟩
  · exact grows_put_file hq octets
  · exact grows_put_free hq

/-- A path that a file stands at leads there for reading as for writing. -/
theorem place?_of_landing? {node : Node} (h : fs.landing? p = some q) (hq : fs.node? q = some node) :
    fs.place? p = some q := by
  rcases landing?_cases h with ⟨ht, -⟩ | ⟨-, -, -, -, hnone⟩
  · exact place?_eq_some_iff.2 (locate_of_writeTarget ht)
  · rw [hnone] at hq
    cases hq

theorem storeText_some (text : String) (h : fs.landing? p = some q) :
    fs.storeText p text = (.ok (), fs.put q (.file (encodeUtf8 text))) := by
  rcases landing?_cases h with ⟨ht, octets, hq⟩ | ⟨directory, name, ht, rfl, -⟩
  · simp only [storeText, writeText, write, ht, hq]
  · simp only [storeText, writeText, write, ht]

/-! ### Refusals -/

def walkFaults : List Fault := [.notDirectory, .nameTooLong, .noEntry, .tooManyLinks]

theorem walkSteps_fault {follow : Place → List String → Except Fault Target} {at_ : Place} {steps : List String}
    {fault : Fault} (hfollow : ∀ q rest, follow q rest = .error fault → fault ∈ walkFaults)
    (h : fs.walkSteps follow at_ steps = .error fault) : fault ∈ walkFaults := by
  induction steps generalizing at_ with
  | nil => cases h
  | cons step rest ih =>
    unfold walkSteps at h
    split at h
    · cases h
      simp [walkFaults]
    · split at h
      · exact ih h
      · split at h
        · exact ih h
        · split at h
          · cases h
            simp [walkFaults]
          · split at h
            · split at h
              · cases h
              · cases h
                simp [walkFaults]
            · exact hfollow _ _ h
            · exact ih h

theorem walk_fault {n : Nat} {at_ : Place} {steps : List String} {fault : Fault}
    (h : fs.walk n at_ steps = .error fault) : fault ∈ walkFaults := by
  induction n generalizing at_ steps with
  | zero =>
    rw [walk] at h
    refine walkSteps_fault (fun q rest hq => ?_) h
    cases hq
    simp [walkFaults]
  | succ n ih =>
    rw [walk] at h
    exact walkSteps_fault (fun q rest hq => ih hq) h

def writeFaults : List Fault := [.zeroInName, .noEntry, .nameTooLong, .isDirectory] ++ walkFaults

theorem textFault_mem {fault : Fault} (h : textFault p = some fault) : fault ∈ writeFaults := by
  unfold textFault at h
  split at h
  · cases h
    simp [writeFaults]
  · split at h
    · cases h
      simp [writeFaults]
    · split at h
      · cases h
        simp [writeFaults]
      · cases h

theorem writeTarget_fault {fault : Fault} (h : fs.writeTarget p = .error fault) : fault ∈ writeFaults := by
  unfold writeTarget at h
  split at h
  · next htext =>
    cases h
    exact textFault_mem htext
  · simp only at h
    split at h
    · split at h
      · next hwalk =>
        cases h
        exact List.mem_append_right _ (walk_fault hwalk)
      · cases h
        simp [writeFaults]
    · exact List.mem_append_right _ (walk_fault h)

/-- What cannot be written is refused for one of the usual reasons, and the files stay. -/
theorem storeText_none (text : String) (h : fs.landing? p = none) :
    ∃ fault ∈ writeFaults, fs.storeText p text = (.error (.unwritable p fault), fs) := by
  unfold landing? at h
  split at h
  · next fault ht =>
    exact ⟨fault, writeTarget_fault ht, by simp only [storeText, writeText, write, ht]⟩
  · cases h
  · next place ht =>
    refine ⟨.isDirectory, by simp [writeFaults], ?_⟩
    cases hnode : fs.node? place with
    | none => simp only [storeText, writeText, write, ht, hnode]
    | some node => cases node with
      | file octets => simp [hnode] at h
      | directory => simp only [storeText, writeText, write, ht, hnode]
      | link target => simp only [storeText, writeText, write, ht, hnode]

end FileSystem
end NoteStencil
