import NoteStencil.Proofs.Making

/-! The one file that a store behind new directories touches. A path names its destination only once the directories
above it are made, so what it led to before is not always what is written. -/

namespace NoteStencil
namespace FileSystem

variable {fs fs' fs'' after : FileSystem} {p d : Path} {q place : Place}

/-- The place whose file is made or replaced, once the directories above the path are there. -/
def destination? (fs : FileSystem) (p : Path) : Option Place :=
  match fs.ensureParent p with
  | (.error _, _) => none
  | (.ok (), made) => made.landing? p

theorem destination?_eq (h : fs.ensureParent p = (.ok (), after)) : fs.destination? p = after.landing? p := by
  rw [destination?, h]

theorem destination?_eq_some_iff :
    fs.destination? p = some q ↔ ∃ after, fs.ensureParent p = (.ok (), after) ∧ after.landing? p = some q := by
  constructor
  · intro h
    unfold destination? at h
    split at h
    · cases h
    · next made hmade => exact ⟨made, hmade, h⟩
  · rintro ⟨made, hmade, hq⟩
    rwa [destination?_eq hmade]

/-- Nothing is lost: only the file at the destination may differ, and all that is new besides are directories above. -/
structure OnlyAt (p : Path) (fs fs' : FileSystem) : Prop where
  grows : Grows fs fs'
  only : ∀ q, fs'.node? q = fs.node? q ∨
    (fs.destination? p = some q ∧ ∃ octets, fs'.node? q = some (.file octets)) ∨
    (fs.node? q = none ∧ fs'.node? q = some .directory ∧ ∃ a, p.Above a ∧ fs'.place? a = some q)

theorem OnlyAt.refl (p : Path) (fs : FileSystem) : OnlyAt p fs fs := ⟨.refl fs, fun _ => .inl rfl⟩

theorem OnlyAt.made (h : OnlyAt p fs fs') (hmade : Made p.Above fs' fs'') : OnlyAt p fs fs'' := by
  refine ⟨h.grows.trans hmade.grows, fun q => ?_⟩
  rcases hmade.only q with hsame | ⟨hfree, hnew, ha⟩
  · rcases h.only q with hsame' | ⟨hq, octets, hfile⟩ | ⟨hfree, hnew, a, ha, hplace⟩
    · exact .inl (hsame.trans hsame')
    · exact .inr (.inl ⟨hq, octets, hsame.trans hfile⟩)
    · exact .inr (.inr ⟨hfree, hsame.trans hnew, a, ha, hmade.grows.place? hplace⟩)
  · exact .inr (.inr ⟨h.grows.free hfree, hnew, ha⟩)

/-- Every file but the one at the destination is as it was. -/
theorem OnlyAt.kept {octets : List UInt8} (h : OnlyAt p fs fs') (hq : fs.node? q = some (.file octets))
    (hne : fs.destination? p ≠ some q) : fs'.node? q = some (.file octets) := by
  rcases h.only q with hsame | ⟨heq, -⟩ | ⟨hfree, -⟩
  · exact hsame.trans hq
  · exact absurd heq hne
  · rw [hfree] at hq
    cases hq

/-- The directories above are made, and from here the path names its destination. -/
structure Opened (p : Path) (fs fs' : FileSystem) : Prop extends OnlyAt p fs fs' where
  lands : fs'.landing? p = fs.destination? p

theorem opened_of_ensureParent (h : fs.ensureParent p = (.ok (), after)) : Opened p fs after := by
  have hmade := made_of_ensureParent fs p
  rw [h] at hmade
  exact ⟨(OnlyAt.refl p fs).made hmade, (destination?_eq h).symm⟩

theorem Opened.put (h : Opened p fs fs') (hq : fs.destination? p = some q) (octets : List UInt8) :
    Opened p fs (fs'.put q (.file octets)) := by
  have hlands : fs'.landing? p = some q := h.lands.trans hq
  have hthere : (fs'.put q (.file octets)).node? q = some (.file octets) := node?_put_self (ne_root_of_landing? hlands)
  have hgrows := grows_put_landing hlands octets
  refine ⟨⟨h.grows.trans hgrows, fun r => ?_⟩, (landing?_grown hlands hgrows hthere).trans hq.symm⟩
  by_cases hr : r = q
  · rw [hr]
    exact .inr (.inl ⟨hq, octets, hthere⟩)
  · rw [node?_put_of_ne hr]
    rcases h.only r with hsame | hfile | ⟨hfree, hnew, a, ha, hplace⟩
    · exact .inl hsame
    · exact .inr (.inl hfile)
    · exact .inr (.inr ⟨hfree, hnew, a, ha, hgrows.place? hplace⟩)

/-- A store either replaces the file at the destination, or is refused and changes nothing. -/
theorem Opened.storeText (h : Opened p fs fs') (text : String) :
    (∃ q, fs.destination? p = some q ∧ fs'.storeText p text = (.ok (), fs'.put q (.file (encodeUtf8 text))) ∧
        Opened p fs (fs'.put q (.file (encodeUtf8 text)))) ∨
      fs.destination? p = none ∧ ∃ fault ∈ writeFaults, fs'.storeText p text = (.error (.unwritable p fault), fs') := by
  cases hq : fs.destination? p with
  | none => exact .inr ⟨rfl, storeText_none text (h.lands.trans hq)⟩
  | some q => exact .inl ⟨q, rfl, storeText_some text (h.lands.trans hq), h.put hq _⟩

theorem Opened.made {octets : List UInt8} (h : Opened p fs fs') (hmade : Made p.Above fs' fs'')
    (hq : fs.destination? p = some q) (hfile : fs'.node? q = some (.file octets)) : Opened p fs fs'' := by
  obtain ⟨octets', hfile'⟩ := hmade.grows.file q octets hfile
  exact ⟨h.toOnlyAt.made hmade, (landing?_grown (h.lands.trans hq) hmade.grows hfile').trans hq.symm⟩

/-! ### Destinations that are known before -/

/-- Directories that are made do not change what an existing path leads to. -/
theorem destination?_of_place? (h : fs.place? p = some place) (hq : fs.destination? p = some q) : q = place := by
  obtain ⟨after, hmade, hlands⟩ := destination?_eq_some_iff.1 hq
  have hgrows : Grows fs after := (opened_of_ensureParent hmade).grows
  have hplace := place?_eq_some_iff.1 (hgrows.place? h)
  rcases landing?_cases hlands with ⟨ht, -⟩ | ⟨directory, name, ht, -, -⟩
  · rw [locate_of_writeTarget ht] at hplace
    cases hplace
    rfl
  · rw [locate_of_writeTarget ht] at hplace
    cases hplace

/-- A destination that is there already is what the path leads to already. -/
def Steady (fs : FileSystem) (p : Path) : Prop :=
  ∀ q, fs.destination? p = some q → fs.node? q ≠ none → fs.place? p = some q

theorem steady_of_directory (h : ∀ d, p.directory = some d → fs.isDirectory d = true) : fs.Steady p := by
  have hmade : fs.ensureParent p = (.ok (), fs) := by
    unfold ensureParent
    split
    · rfl
    · next d hd => exact ensureDirectory_of_isDirectory (h d hd)
  intro q hq hthere
  obtain ⟨node, hnode⟩ := Option.ne_none_iff_exists'.1 hthere
  rw [destination?_eq hmade] at hq
  exact place?_of_landing? hq hnode

end FileSystem
end NoteStencil
