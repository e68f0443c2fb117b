import NoteStencil.Proofs.Insertion
import NoteStencil.Proofs.Rooted

/-! What cloning a template does to the files. The destination is compared with the template before the directories above
the destination are made, and emptied after: only a destination that leads to the template by then, and not before,
costs the template its content. -/

namespace NoteStencil

open FileSystem

theorem Template.isFile_of_resolve {fs : FileSystem} {directory : Option Path} {reference : String} {template : Path}
    (h : Template.resolve fs directory reference = .ok template) : fs.isFile template = true := by
  unfold Template.resolve at h
  split at h
  · cases h
  · split at h
    · next hfind =>
      cases h
      exact List.find?_some hfind
    · cases h

/-! ### Failures of reading -/

def Failure.OfReading : Failure → Prop
  | .unreadable _ _ | .unclosedFrontmatter _ | .metadata _ _ => True
  | _ => False

theorem takeBlock_error {origin : Path} {source : LineSource} {n : Nat} {failure : Failure} {c : LineCursor}
    (h : LineCursor.takeBlock origin source n = (.error failure, c)) : failure.OfReading := by
  induction source generalizing n with
  | nil =>
    cases h
    trivial
  | cons item rest ih =>
    cases item with
    | error fault =>
      cases h
      trivial
    | ok line =>
      rw [LineCursor.takeBlock] at h
      split at h
      · cases h
      · split at h
        · cases h
        · next hrest =>
          cases h
          exact ih hrest

theorem takeLeading_error {c c' : LineCursor} {failure : Failure} (h : c.takeLeading = (.error failure, c')) :
    failure.OfReading := by
  obtain ⟨source, origin, n⟩ := c
  unfold LineCursor.takeLeading LineCursor.next at h
  match source with
  | [] => cases h
  | .error fault :: rest =>
    cases h
    trivial
  | .ok first :: rest =>
    simp only at h
    split at h
    · split at h
      · cases h
      · next hblock =>
        cases h
        exact takeBlock_error hblock
    · cases h

theorem mapM_error {f : α → Except ε β} {failure : ε} {items : List α} (h : items.mapM f = .error failure) :
    ∃ item ∈ items, f item = .error failure := by
  induction items with
  | nil => cases h
  | cons item rest ih =>
    rw [List.mapM_cons] at h
    cases hitem : f item with
    | error failure' =>
      rw [hitem] at h
      cases h
      exact ⟨item, List.mem_cons_self, hitem⟩
    | ok b =>
      cases hrest : rest.mapM f with
      | ok bs =>
        rw [hitem, hrest] at h
        cases h
      | error failure' =>
        rw [hitem, hrest] at h
        cases h
        obtain ⟨item', hmem, hitem'⟩ := ih hrest
        exact ⟨item', List.mem_cons_of_mem item hmem, hitem'⟩

theorem remaining_error {c : LineCursor} {failure : Failure} (h : c.remaining = .error failure) :
    failure.OfReading := by
  obtain ⟨item, -, hitem⟩ := mapM_error h
  split at hitem
  · cases hitem
  · cases hitem
    trivial

theorem map_error {x : Except ε α} {f : α → β} {failure : ε} (h : x.map f = .error failure) : x = .error failure := by
  cases x with
  | error failure' =>
    cases h
    rfl
  | ok a => cases h

theorem split_error {c : LineCursor} {failure : Failure} (h : c.split = .error failure) : failure.OfReading := by
  unfold LineCursor.split at h
  split at h
  · next hleading =>
    cases h
    exact takeLeading_error hleading
  · exact remaining_error (map_error h)
  · exact remaining_error (map_error h)

theorem readMapping_error {interior : List String} {origin : Path} {failure : Failure}
    (h : Note.readMapping interior origin = .error failure) : failure.OfReading := by
  unfold Note.readMapping at h
  split at h
  · cases h
    trivial
  · cases h
  · cases h
  · cases h
    trivial

theorem ofLines_error {lines : List String} {path : Option Path} {failure : Failure}
    (h : Note.ofLines lines path = .error failure) : failure.OfReading := by
  unfold Note.ofLines at h
  simp only at h
  split at h
  · next hsplit =>
    cases h
    exact split_error hsplit
  · split at h
    · exact readMapping_error (map_error h)
    · cases h

theorem ofFile_error {fs : FileSystem} {path : Path} {failure : Failure} (h : Note.ofFile fs path = .error failure) :
    failure.OfReading := by
  unfold Note.ofFile at h
  split at h
  · next htext =>
    cases h
    unfold textAt at htext
    split at htext
    · cases htext
    · cases htext
      trivial
  · exact ofLines_error h

namespace Engine

variable {σ : Type} {e : Engine} {p : Prompter σ} {reference : String} {template destination : Path} {source : Note}
  {w w' : World σ}

/-! ### Failures before anything is done -/

/-- There is no template to copy, or the destination is the template. -/
def Early (destination : Path) (failure : Failure) : Prop :=
  failure = .templatesDirUndefined ∨ (∃ name directory suggestions, failure = .templateNotFound name directory suggestions) ∨
    ∃ template, failure = .unwritable destination (ownTemplate template)

theorem ownTemplate_not_mem (template : Path) : ownTemplate template ∉ writeFaults := by
  intro h
  have hinitials : ∀ fault ∈ writeFaults, fault.text.toList.head? ≠ some 'd' := by decide +kernel
  exact hinitials _ h (by simp [ownTemplate])

theorem not_early_unwritable {fault : Fault} (h : fault ∈ writeFaults) :
    ¬ Early destination (.unwritable destination fault) := by
  rintro (he | ⟨name, directory, suggestions, he⟩ | ⟨template, he⟩)
  · cases he
  · cases he
  · cases he
    exact ownTemplate_not_mem template h

theorem not_early_directoryNotMade {d : Path} {fault : Fault} : ¬ Early destination (.directoryNotMade d fault) := by
  rintro (he | ⟨name, directory, suggestions, he⟩ | ⟨template, he⟩) <;> cases he

theorem not_early_of_reading {failure : Failure} (h : failure.OfReading) : ¬ Early destination failure := by
  rintro (rfl | ⟨name, directory, suggestions, rfl⟩ | ⟨template, rfl⟩) <;> exact h

/-! ### Copies -/

theorem ensureParent_error {fs fs' : FileSystem} {failure : Failure} (h : fs.ensureParent destination = (.error failure, fs')) :
    ∃ d fault, failure = .directoryNotMade d fault := by
  unfold ensureParent ensureDirectory at h
  split at h
  · cases h
  · split at h
    · cases h
    · cases h
      exact ⟨_, _, rfl⟩

theorem readable_sourceAt_nil {fs : FileSystem} (h : fs.read template = .ok []) :
    readable (sourceAt fs template).rest = ([], none) := by
  rw [sourceAt, h]
  rfl

/-- Filling replaces the file at the destination once, by nothing when the template is empty. -/
theorem fillFrom_files {r : Except Failure Unit} {q : Place}
    (h : e.fillFrom p template destination source w = (r, w')) (hq : w.files.landing? destination = some q) :
    ∃ text, w'.files = w.files.put q (.file (encodeUtf8 text)) ∧ (w.files.read template = .ok [] → text = "") ∧
      ∀ failure, r = .error failure → ¬ Early destination failure := by
  unfold fillFrom at h
  cases hsource : readable (sourceAt w.files template).rest with
  | mk lines fault =>
    cases hexpanded : expandLines p lines (e.contextFor source) w.prompt with
    | mk out rest =>
      obtain ⟨c, s⟩ := rest
      have hstore : (w.expanded s (e.contextFor source) c).files.storeText destination (closeLines out) =
          (.ok (), w.files.put q (.file (encodeUtf8 (closeLines out)))) := storeText_some _ hq
      simp only [hsource, hexpanded, hstore] at h
      have hempty : w.files.read template = .ok [] → closeLines out = "" := by
        intro hread
        rw [readable_sourceAt_nil hread] at hsource
        cases hsource
        cases hexpanded
        rfl
      cases fault with
      | none =>
        cases h
        exact ⟨closeLines out, rfl, hempty, nofun⟩
      | some fault =>
        cases h
        refine ⟨closeLines out, rfl, hempty, fun failure hfailure => ?_⟩
        cases hfailure
        exact not_early_of_reading trivial

theorem read_of_place? {fs : FileSystem} {q : Place} {octets : List UInt8} (hplace : fs.place? template = some q)
    (hq : fs.node? q = some (.file octets)) : fs.read template = .ok octets := by
  rw [FileSystem.read, place?_eq_some_iff.1 hplace]
  simp only [hq]

/-- What a copy leaves: the file at the destination, directories above it, or some of those. -/
theorem copyTo_files {r : Except Failure Unit} (h : e.copyTo p template destination source w = (r, w')) :
    OnlyAt destination w.files w'.files ∧ (∀ failure, r = .error failure → ¬ Early destination failure) ∧
      (r = .ok () → Opened destination w.files w'.files ∧ ∃ q octets, w.files.destination? destination = some q ∧
        w'.files.node? q = some (.file octets)) ∧
      ∀ q, w.files.place? template = some q → w.files.destination? destination = some q →
        w'.files.node? q = some (.file []) := by
  unfold copyTo at h
  cases hparent : w.files.ensureParent destination with
  | mk result made =>
    cases result with
    | error failure =>
      have hmade := made_of_ensureParent w.files destination
      have hnone : w.files.destination? destination = none := by rw [destination?, hparent]
      obtain ⟨d, fault, rfl⟩ := ensureParent_error hparent
      simp only [hparent] at h hmade
      cases h
      refine ⟨(OnlyAt.refl _ _).made hmade, fun failure hfailure => ?_, fun hok => ?_, fun q _ hq => ?_⟩
      · cases hfailure
        exact not_early_directoryNotMade
      · cases hok
      · rw [hnone] at hq
        cases hq
    | ok u =>
      have hopened : Opened destination w.files made := opened_of_ensureParent hparent
      simp only [hparent] at h
      rcases hopened.storeText "" with ⟨q, hq, hstore, hopened'⟩ | ⟨hnone, fault, hfault, hstore⟩
      · rw [hstore] at h
        simp only at h
        obtain ⟨text, hfiles, hempty, hfailures⟩ := fillFrom_files h (hopened'.lands.trans hq)
        have hne : q ≠ [] := ne_root_of_landing? (hopened'.lands.trans hq)
        have hopened'' : Opened destination w.files w'.files := hfiles ▸ hopened'.put hq _
        have hthere : w'.files.node? q = some (.file (encodeUtf8 text)) := by rw [hfiles, node?_put_self hne]
        refine ⟨hopened''.toOnlyAt, hfailures, fun _ => ⟨hopened'', q, _, hq, hthere⟩, fun q' hplace hq' => ?_⟩
        obtain rfl : q' = q := Option.some.inj (hq'.symm.trans hq)
        -- the template is read after the destination was emptied, and that is the template
        have hread := read_of_place? (hopened'.grows.place? hplace) (node?_put_self hne)
        rw [hthere, hempty hread]
        rfl
      · rw [hstore] at h
        cases h
        refine ⟨hopened.toOnlyAt, fun failure hfailure => ?_, fun hok => ?_, fun q _ hq => ?_⟩
        · cases hfailure
          exact not_early_unwritable hfault
        · cases hok
        · rw [hnone] at hq
          cases hq

/-! ### Clones -/

/-- The world once the template was looked up: only warnings are new. -/
def looked (e : Engine) (reference : String) (w : World σ) : World σ := (e.resolve reference w).2

/-- The ways in which a clone can end. -/
inductive Cloned (e : Engine) (p : Prompter σ) (reference : String) (destination : Path) (source : Note) (w : World σ) :
    Except Failure Note → World σ → Prop
  | unresolved {failure : Failure} (resolved : Template.resolve w.files e.directory reference = .error failure) :
      Cloned e p reference destination source w (.error failure) (e.looked reference w)
  | refused {template : Path} (resolved : Template.resolve w.files e.directory reference = .ok template)
      (same : w.files.sameFile template destination = true) :
      Cloned e p reference destination source w (.error (.unwritable destination (ownTemplate template)))
        (e.looked reference w)
  | stopped {template : Path} {failure : Failure} {w' : World σ}
      (resolved : Template.resolve w.files e.directory reference = .ok template)
      (other : w.files.sameFile template destination = false)
      (copied : e.copyTo p template destination source (e.looked reference w) = (.error failure, w')) :
      Cloned e p reference destination source w (.error failure) w'
  | copied {template : Path} {w' : World σ}
      (resolved : Template.resolve w.files e.directory reference = .ok template)
      (other : w.files.sameFile template destination = false)
      (copied : e.copyTo p template destination source (e.looked reference w) = (.ok (), w')) :
      Cloned e p reference destination source w ((Note.ofFile w'.files destination).map (inherit · source)) w'

theorem cloned {r : Except Failure Note} (h : e.clone p reference destination source w = (r, w')) :
    Cloned e p reference destination source w r w' := by
  unfold clone at h
  split at h
  · next failure w₁ hresolve =>
    obtain ⟨hresolved, rfl⟩ := Prod.mk.inj hresolve
    cases h
    exact .unresolved hresolved
  · next template w₁ hresolve =>
    obtain ⟨hresolved, rfl⟩ := Prod.mk.inj hresolve
    split at h
    · next hsame =>
      cases h
      exact .refused hresolved hsame
    · next hother =>
      have hother' : w.files.sameFile template destination = false := Bool.eq_false_iff.2 hother
      split at h
      · next hcopy =>
        cases h
        exact .stopped hresolved hother' hcopy
      · next hcopy =>
        cases h
        exact .copied hresolved hother' hcopy

theorem sameFile_iff {fs : FileSystem} {a b : Path} {q : Place} (ha : fs.place? a = some q) :
    fs.sameFile a b = true ↔ fs.place? b = some q := by
  unfold sameFile
  rw [ha]
  cases fs.place? b with
  | none => exact ⟨nofun, nofun⟩
  | some r =>
    simp only [beq_iff_eq, Option.some.injEq]
    exact eq_comm

theorem template_file {template : Path} {fs : FileSystem} {directory : Option Path}
    (h : Template.resolve fs directory reference = .ok template) :
    ∃ q octets, fs.place? template = some q ∧ fs.node? q = some (.file octets) :=
  isFile_iff.1 (Template.isFile_of_resolve h)

/-- After a copy the template is as it was, unless the destination leads to it by then. -/
theorem copyTo_template {r : Except Failure Unit} {q : Place} {octets : List UInt8}
    (h : e.copyTo p template destination source w = (r, w')) (hother : w.files.sameFile template destination = false)
    (hplace : w.files.place? template = some q) (hq : w.files.node? q = some (.file octets)) :
    w'.files.node? q = some (.file octets) ↔
      octets = [] ∨ w.files.destination? destination ≠ some q ∨ w.files.place? destination = some q := by
  obtain ⟨honly, -, -, hempties⟩ := copyTo_files h
  have hnot : w.files.place? destination ≠ some q := fun he => by
    rw [(sameFile_iff hplace).2 he] at hother
    cases hother
  constructor
  · intro hkept
    by_cases hdestination : w.files.destination? destination = some q
    · have hempty := hempties q hplace hdestination
      rw [hkept] at hempty
      cases hempty
      exact .inl rfl
    · exact .inr (.inl hdestination)
  · rintro (rfl | hne | he)
    · by_cases hdestination : w.files.destination? destination = some q
      · exact hempties q hplace hdestination
      · exact honly.kept hq hdestination
    · exact honly.kept hq hne
    · exact absurd he hnot

section

variable {r : Except Failure Note}

theorem Cloned.onlyAt (h : Cloned e p reference destination source w r w') : OnlyAt destination w.files w'.files := by
  cases h with
  | unresolved | refused => exact .refl _ _
  | stopped _ _ copied => exact (copyTo_files copied).1
  | copied _ _ copied => exact (copyTo_files copied).1

theorem Cloned.opened {note : Note} (h : Cloned e p reference destination source w r w') (hr : r = .ok note) :
    Opened destination w.files w'.files ∧ ∃ q octets, w.files.destination? destination = some q ∧
      w'.files.node? q = some (.file octets) := by
  cases h with
  | unresolved | refused | stopped => cases hr
  | copied _ _ copied => exact (copyTo_files copied).2.2.1 rfl

theorem Cloned.resolved {note : Note} (h : Cloned e p reference destination source w r w') (hr : r = .ok note) :
    ∃ template, Template.resolve w.files e.directory reference = .ok template := by
  cases h with
  | unresolved | refused | stopped => cases hr
  | copied resolved _ _ => exact ⟨_, resolved⟩

theorem Cloned.files_of_early {failure : Failure} (h : Cloned e p reference destination source w r w')
    (hr : r = .error failure) (hearly : Early destination failure) : w'.files = w.files := by
  cases h with
  | unresolved | refused => rfl
  | stopped _ _ copied =>
    cases hr
    exact absurd hearly ((copyTo_files copied).2.1 _ rfl)
  | copied _ _ copied => exact absurd hearly (not_early_of_reading (ofFile_error (map_error hr)))

theorem Cloned.template_kept_iff {q : Place} {octets : List UInt8}
    (h : Cloned e p reference destination source w r w')
    (hresolve : Template.resolve w.files e.directory reference = .ok template)
    (hplace : w.files.place? template = some q) (hq : w.files.node? q = some (.file octets)) :
    w'.files.node? q = some (.file octets) ↔
      octets = [] ∨ w.files.destination? destination ≠ some q ∨ w.files.place? destination = some q := by
  cases h with
  | unresolved resolved =>
    rw [resolved] at hresolve
    cases hresolve
  | refused resolved same =>
    obtain rfl := Except.ok.inj (resolved.symm.trans hresolve)
    have hkept : (e.looked reference w).files.node? q = some (.file octets) := hq
    exact iff_of_true hkept (.inr (.inr ((sameFile_iff hplace).1 same)))
  | stopped resolved other copied =>
    obtain rfl := Except.ok.inj (resolved.symm.trans hresolve)
    have hkept := copyTo_template copied other hplace hq
    exact hkept
  | copied resolved other copied =>
    obtain rfl := Except.ok.inj (resolved.symm.trans hresolve)
    have hkept := copyTo_template copied other hplace hq
    exact hkept

/-- Cloning loses nothing, and touches no file but the one at the destination; when it fails early, it touches nothing at
all. The template keeps its content unless the destination comes to lead to it by the directories that are made, and
that cannot happen when the directory of the destination is there, or the destination does not go up. -/
theorem clone_touches (h : e.clone p reference destination source w = (r, w')) :
    OnlyAt destination w.files w'.files ∧
      (∀ failure, r = .error failure → Early destination failure → w'.files = w.files) ∧
      ∀ template, Template.resolve w.files e.directory reference = .ok template →
        ∃ q octets, w.files.place? template = some q ∧ w.files.node? q = some (.file octets) ∧
          (w'.files.node? q = some (.file octets) ↔
            octets = [] ∨ w.files.destination? destination ≠ some q ∨ w.files.place? destination = some q) ∧
          (w.files.Straight destination → w'.files.node? q = some (.file octets)) := by
  have hcloned := cloned h
  refine ⟨hcloned.onlyAt, fun failure hr hearly => hcloned.files_of_early hr hearly, fun template hresolve => ?_⟩
  obtain ⟨q, octets, hplace, hq⟩ := template_file hresolve
  have hkept := hcloned.template_kept_iff hresolve hplace hq
  refine ⟨q, octets, hplace, hq, hkept, fun hstraight => hkept.2 ?_⟩
  by_cases hdestination : w.files.destination? destination = some q
  · exact .inr (.inr (hstraight.steady q hdestination (by simp [hq])))
  · exact .inr (.inl hdestination)

end

/-- A destination behind a missing directory and a `..` is the template itself, and the template ends up empty. -/
theorem clone_empties_template :
    ∃ (w w' : World Unit) (note : Note),
      sampleEngine.clone (.silent Unit) "x" ⟨"/m/../t/x.md"⟩ {} w = (.ok note, w') ∧
      w.files.node? ["t", "x.md"] = some (.file (encodeUtf8 "hi\n")) ∧
      w'.files.node? ["t", "x.md"] ≠ some (.file (encodeUtf8 "hi\n")) := by
  let w : World Unit := (sampleDesk "hi\n" {} []).world
  have hok : (sampleEngine.clone (.silent Unit) "x" ⟨"/m/../t/x.md"⟩ {} w).1.toOption.isSome = true := by
    decide +kernel
  have hthere : w.files.node? ["t", "x.md"] = some (.file (encodeUtf8 "hi\n")) := rfl
  have hfile : w.files.place? ⟨"/t/x.md"⟩ = some ["t", "x.md"] := by decide +kernel
  have hdestination : w.files.destination? ⟨"/m/../t/x.md"⟩ = some ["t", "x.md"] ∧
      w.files.place? ⟨"/m/../t/x.md"⟩ = none := by decide +kernel
  have hresolve : Template.resolve w.files sampleEngine.directory "x" = .ok ⟨"/t/x.md"⟩ :=
    eq_ok_of_toOption (by decide +kernel)
  cases hr : sampleEngine.clone (.silent Unit) "x" ⟨"/m/../t/x.md"⟩ {} w with
  | mk r w' =>
    obtain ⟨-, -, htemplate⟩ := clone_touches hr
    obtain ⟨q, octets, hplace, hq, hkept, -⟩ := htemplate ⟨"/t/x.md"⟩ hresolve
    obtain rfl := Option.some.inj (hplace.symm.trans hfile)
    rw [hthere] at hq
    cases r with
    | error failure =>
      rw [hr] at hok
      cases hok
    | ok note =>
      refine ⟨w, w', note, hr, hthere, fun hsame => ?_⟩
      rw [hq] at hsame
      rcases hkept.1 hsame with rfl | hne | hplace'
      · exact absurd (Node.file.inj (Option.some.inj hq)) (by decide +kernel)
      · exact hne hdestination.1
      · rw [hdestination.2] at hplace'
        cases hplace'

end Engine
end NoteStencil
