import NoteStencil.Proofs.Insertion
import NoteStencil.Proofs.Reread
import NoteStencil.Proofs.Sameness

/-! What a merge brings into a note. Tags are united, new names come behind those that are there, and metadata keeps the
keys of the note in their places with the template's values for those it has too, its own keys behind them. All of it is
there after one merge, so the same template brings nothing more. -/

namespace NoteStencil

namespace Yaml

open Value

variable {m : Mapping} {k k' v : Value}

/-! ### One entry -/

theorem find?_put_of_not_same (hk : Regular k) (v : Value) (h : (k' == k) = false) :
    Table.find? (Table.put k v m) k' = Table.find? m k' := by
  induction m with
  | nil => simp [Table.put, Table.find?, h]
  | cons e rest ih =>
    unfold Table.put
    split
    · next hke =>
      -- a key that is the same as the one in place would be the same as the new one
      have hne : (k' == e.1) = false := by
        apply Bool.eq_false_iff.2
        intro hk'e
        exact Bool.false_ne_true (h.symm.trans (same_trans k' e.1 k hk'e (hk.same_symm hke)))
      simp [Table.find?, hne]
    · by_cases hk'e : (k' == e.1) = true
      · simp [Table.find?, hk'e]
      · simpa [Table.find?, hk'e] using ih

theorem put_of_find? (h : Table.find? m k = some v) : Table.put k v m = m := by
  induction m with
  | nil => simp [Table.find?] at h
  | cons e rest ih =>
    unfold Table.put
    by_cases hke : (k == e.1) = true
    · have hv : e.2 = v := by simpa [Table.find?, hke] using h
      rw [if_pos hke, ← hv]
    · rw [if_neg hke, ih (by simpa [Table.find?, hke] using h)]

theorem keys_put (m : Mapping) (k v : Value) :
    (Table.put k v m).map (·.1) = m.map (·.1) ++ if Table.has m k then [] else [k] := by
  induction m with
  | nil => simp [Table.put, Table.has, Table.find?]
  | cons e rest ih =>
    unfold Table.put
    by_cases hke : (k == e.1) = true
    · simp [hke, Table.has, Table.find?]
    · have hhas : Table.has (e :: rest) k = Table.has rest k := by simp [Table.has, Table.find?, hke]
      rw [if_neg hke, List.map_cons, ih, hhas]
      rfl

end Yaml

namespace Note

open Yaml Yaml.Value

variable {m new : Mapping} {k v : Value} {n t : Note}

/-! ### Many entries -/

theorem joinEntries_cons (m : Mapping) (e : Value × Value) (rest : Mapping) :
    joinEntries m (e :: rest) = joinEntries (Table.put e.1 e.2 m) rest := rfl

/-- A key that the new entries do not have keeps its value. -/
theorem find?_joinEntries_kept (hnew : ∀ e ∈ new, Regular e.1) (h : Table.has new k = false) :
    Table.find? (joinEntries m new) k = Table.find? m k := by
  induction new generalizing m with
  | nil => rfl
  | cons e rest ih =>
    obtain ⟨he, hrest⟩ := List.forall_mem_cons.1 hnew
    obtain ⟨hne, hfree⟩ := List.forall_mem_cons.1 (Table.has_eq_false_iff.1 h)
    rw [joinEntries_cons, ih hrest (Table.has_eq_false_iff.2 hfree)]
    exact find?_put_of_not_same he e.2 hne

/-- Among distinct keys, one is no key of the entries behind it. -/
theorem has_behind {e : Value × Value} {rest : Mapping} (he : Regular e.1) (h : Table.Distinct (e :: rest)) :
    Table.has rest e.1 = false := by
  apply Table.has_eq_false_iff.2
  intro d hd
  apply Bool.eq_false_iff.2
  intro hsame
  have hback : (d.1 == e.1) = true := he.same_symm hsame
  exact Bool.false_ne_true (((List.pairwise_cons.1 h).1 d hd).symm.trans hback)

/-- Each new key has its new value. -/
theorem find?_joinEntries_given (hnew : ∀ e ∈ new, Regular e.1) (hdistinct : Table.Distinct new) :
    ∀ e ∈ new, Table.find? (joinEntries m new) e.1 = some e.2 := by
  induction new generalizing m with
  | nil => simp
  | cons e rest ih =>
    obtain ⟨he, hrest⟩ := List.forall_mem_cons.1 hnew
    rw [joinEntries_cons, List.forall_mem_cons]
    constructor
    · rw [find?_joinEntries_kept hrest (has_behind he hdistinct)]
      exact Table.find?_put_self m e.1 e.2
    · exact ih hrest (List.pairwise_cons.1 hdistinct).2

/-- The keys that are there stay in their places, and the others come behind them. -/
theorem keys_joinEntries (hnew : ∀ e ∈ new, Regular e.1) (hdistinct : Table.Distinct new) :
    (joinEntries m new).map (·.1) = m.map (·.1) ++ (new.map (·.1)).filter (!Table.has m ·) := by
  induction new generalizing m with
  | nil => simp [joinEntries]
  | cons e rest ih =>
    obtain ⟨he, hrest⟩ := List.forall_mem_cons.1 hnew
    obtain ⟨hbefore, hdistinct⟩ := List.pairwise_cons.1 hdistinct
    have hfilter : (rest.map (·.1)).filter (!Table.has (Table.put e.1 e.2 m) ·) =
        (rest.map (·.1)).filter (!Table.has m ·) := by
      refine List.filter_congr fun k hk => ?_
      obtain ⟨d, hd, rfl⟩ := List.mem_map.1 hk
      rw [Table.has, find?_put_of_not_same he e.2 (hbefore d hd), Table.has]
    rw [joinEntries_cons, ih hrest hdistinct, keys_put, hfilter, List.map_cons, List.filter_cons]
    cases Table.has m e.1 <;> simp

/-- Entries that are all there bring nothing. -/
theorem joinEntries_of_find? (h : ∀ e ∈ new, Table.find? m e.1 = some e.2) : joinEntries m new = m := by
  induction new with
  | nil => rfl
  | cons e rest ih =>
    obtain ⟨he, hrest⟩ := List.forall_mem_cons.1 h
    rw [joinEntries_cons, put_of_find? he, ih hrest]

/-! ### Tags and names -/

variable {tag : String} {ts tags names new : List String}

theorem insertTag_self (tag : String) (ts : List String) : insertTag tag (insertTag tag ts) = insertTag tag ts := by
  induction ts with
  | nil => simp [insertTag]
  | cons u rest ih =>
    rw [insertTag]
    split
    · next h => simp [insertTag, h]
    · next hne =>
      split
      · simp [insertTag]
      · next hge => rw [insertTag, if_neg hne, if_neg hge, ih]

theorem insertTag_cons_eq_iff {u : String} {rest : List String} :
    insertTag tag (u :: rest) = u :: rest ↔ tag = u ∨ u < tag ∧ insertTag tag rest = rest := by
  by_cases hu : tag = u
  · simp [insertTag, hu]
  · rw [insertTag, if_neg hu]
    split
    · next hlt =>
      have hge : ¬ u < tag := fun hgt => String.lt_irrefl u (String.lt_trans hgt hlt)
      simp [hu, hge]
    · next hge =>
      have hlt : u < tag := Std.lt_of_le_of_ne (String.not_lt.1 hge) (Ne.symm hu)
      simp [hu, hlt]

/-- A tag that is found is found after an insertion too, even where tags are in no order. -/
theorem insertTag_kept (h : insertTag tag ts = ts) (other : String) :
    insertTag tag (insertTag other ts) = insertTag other ts := by
  induction ts with
  | nil => simp [insertTag] at h
  | cons u rest ih =>
    rw [insertTag]
    split
    · exact h
    · split
      · next hlt =>
        apply insertTag_cons_eq_iff.2
        rcases insertTag_cons_eq_iff.1 h with rfl | ⟨hgt, -⟩
        · exact .inr ⟨hlt, h⟩
        · exact .inr ⟨String.lt_trans hlt hgt, h⟩
      · apply insertTag_cons_eq_iff.2
        rcases insertTag_cons_eq_iff.1 h with rfl | ⟨hgt, hrest⟩
        · exact .inl rfl
        · exact .inr ⟨hgt, ih hrest⟩

theorem insertTag_joinTags_kept (h : insertTag tag ts = ts) (tags : List String) :
    insertTag tag (joinTags ts tags) = joinTags ts tags := by
  induction tags generalizing ts with
  | nil => exact h
  | cons other rest ih => exact ih (insertTag_kept h other)

theorem insertTag_joinTags (ts tags : List String) : ∀ tag ∈ tags, insertTag tag (joinTags ts tags) = joinTags ts tags := by
  induction tags generalizing ts with
  | nil => simp
  | cons tag rest ih =>
    rw [List.forall_mem_cons]
    exact ⟨insertTag_joinTags_kept (insertTag_self tag ts) rest, ih (insertTag tag ts)⟩

theorem joinTags_of_there (h : ∀ tag ∈ tags, insertTag tag ts = ts) : joinTags ts tags = ts := by
  induction tags with
  | nil => rfl
  | cons tag rest ih =>
    obtain ⟨htag, hrest⟩ := List.forall_mem_cons.1 h
    have hnext : joinTags ts (tag :: rest) = joinTags (insertTag tag ts) rest := rfl
    rw [hnext, htag, ih hrest]

theorem joinNames_of_there (h : ∀ name ∈ new, name ∈ names) : joinNames names new = names := by
  have hnone : new.filter (· ∉ names) = [] := by simpa using h
  rw [joinNames_eq, hnone]
  simp

theorem eraseDups_of_nodup {xs : List String} (h : xs.Nodup) : xs.eraseDups = xs := by
  induction xs with
  | nil => rfl
  | cons x rest ih =>
    obtain ⟨hx, hrest⟩ := List.nodup_cons.1 h
    have hfilter : rest.filter (fun y => !y == x) = rest := by
      apply List.filter_eq_self.2
      intro y hy
      have hne : y ≠ x := fun he => hx (he ▸ hy)
      simp [hne]
    rw [List.eraseDups_cons, hfilter, ih hrest]

/-- New names that do not repeat come behind those that are there as they are. -/
theorem joinNames_of_nodup (h : new.Nodup) : joinNames names new = names ++ new.filter (· ∉ names) := by
  rw [joinNames_eq, eraseDups_of_nodup (h.filter _)]

/-! ### Templates that are read -/

theorem regular_readEntry {e : Value × Value} (he : Regular e.1) (h : ∀ d ∈ n.metadata, Regular d.1) :
    ∀ d ∈ (n.readEntry e).metadata, Regular d.1 := by
  unfold readEntry
  split
  · exact h
  · split
    · rw [addAliases_eq]
      exact h
    · split
      · rw [addTags_eq]
        exact h
      · intro d hd
        rcases Table.key_of_mem_put hd with hk | ⟨d', hd', hk⟩
        · exact hk ▸ he
        · exact hk ▸ h d' hd'

theorem regular_ofMapping {entries : Mapping} (h : ∀ e ∈ entries, Regular e.1) :
    ∀ e ∈ (ofMapping entries).metadata, Regular e.1 := by
  have hfold : ∀ n : Note, (∀ d ∈ n.metadata, Regular d.1) →
      ∀ d ∈ (entries.foldl readEntry n).metadata, Regular d.1 := by
    induction entries with
    | nil => exact fun n hn => hn
    | cons e rest ih =>
      obtain ⟨he, hrest⟩ := List.forall_mem_cons.1 h
      exact fun n hn => ih hrest (n.readEntry e) (regular_readEntry he hn)
  exact hfold {} (by simp)

theorem regular_entriesOf {s : Split} {origin : Path} (h : entriesOf s origin = .ok m) : ∀ e ∈ m, Regular e.1 := by
  unfold entriesOf at h
  split at h
  · obtain ⟨v, hv, hentries⟩ := readMapping_eq_ok_iff.1 h
    have hregular : Regular v := regular_of_parse hv
    cases hregular with
    | mapping _ keys =>
      cases hentries
      exact keys
    | null =>
      cases hentries
      simp
    | _ => cases hentries
  · cases h
    simp

/-- What merging a note relies on: its fields do not repeat, and its keys are the same or not from either side. -/
structure Sound (t : Note) : Prop where
  tidy : t.Tidy
  regular : ∀ e ∈ t.metadata, Regular e.1

theorem sound_of_ofLines {lines : List String} {path : Option Path} (h : ofLines lines path = .ok t) :
    t.Sound := by
  obtain ⟨s, m, -, hm, rfl⟩ := ofLines_eq_ok_iff.1 h
  refine ⟨Tidy.ofSplit s m path, ?_⟩
  rw [ofSplit_eq]
  exact regular_ofMapping (regular_entriesOf hm)

/-! ### A template taken over -/

/-- What a note has once it took over a template: tags of either, its own names with the template's new ones behind
them, its own keys with the template's new ones behind them, the template's values for the template's keys, and all
else as it was. -/
structure Absorbs (n t n' : Note) : Prop where
  tags : ∀ tag, tag ∈ n'.tags ↔ tag ∈ n.tags ∨ tag ∈ t.tags
  ascending : n.tags.Pairwise (· < ·) → n'.tags.Pairwise (· < ·)
  aliases : n'.aliases = n.aliases ++ t.aliases.filter (· ∉ n.aliases)
  keys : n'.metadata.map (·.1) = n.metadata.map (·.1) ++ (t.metadata.map (·.1)).filter (!Table.has n.metadata ·)
  given : ∀ e ∈ t.metadata, Table.find? n'.metadata e.1 = some e.2
  kept : ∀ key, Table.has t.metadata key = false → Table.find? n'.metadata key = Table.find? n.metadata key
  rest : n' = { n with tags := n'.tags, aliases := n'.aliases, metadata := n'.metadata }

theorem Sound.absorbs (h : t.Sound) (n : Note) : Absorbs n t (n.absorb t) := by
  rw [absorb_eq]
  refine ⟨fun tag => mem_joinTags, joinTags_ascending t.tags, joinNames_of_nodup h.tidy.names, ?_, ?_, ?_, rfl⟩
  · exact keys_joinEntries h.regular h.tidy.keys
  · exact find?_joinEntries_given h.regular h.tidy.keys
  · exact fun key hkey => find?_joinEntries_kept h.regular hkey

/-- All that a template brings is there already. -/
structure Has (n t : Note) : Prop where
  tags : ∀ tag ∈ t.tags, insertTag tag n.tags = n.tags
  aliases : ∀ name ∈ t.aliases, name ∈ n.aliases
  metadata : ∀ e ∈ t.metadata, Table.find? n.metadata e.1 = some e.2

theorem Has.absorb_eq (h : n.Has t) : n.absorb t = n := by
  rw [Note.absorb_eq, joinEntries_of_find? h.metadata, joinTags_of_there h.tags, joinNames_of_there h.aliases]

theorem Sound.has_absorb (h : t.Sound) (n : Note) : (n.absorb t).Has t := by
  refine ⟨?_, ?_, (h.absorbs n).given⟩
  · rw [Note.absorb_eq]
    exact insertTag_joinTags n.tags t.tags
  · rw [Note.absorb_eq]
    exact fun name hname => mem_joinNames.2 (.inr hname)

theorem Sound.absorb_absorb (h : t.Sound) (n : Note) : (n.absorb t).absorb t = n.absorb t :=
  (h.has_absorb n).absorb_eq

end Note

/-! ### The merge -/

/-- What a merge reads: the lines of the block, expanded. -/
def templateOf (p : Prompter σ) (block : List String) (origin : Path) (c : Context) (s : σ) : Except Failure Note :=
  Note.ofLines (expandLines p block c s).1 (some origin)

/-- A merge whose block cannot be read leaves the note as it is. One whose block is read gives the note all that the
template has, once and for all, and answers with the note's own lines; what a later template says then comes first. -/
theorem merge_absorbs (p : Prompter σ) (block : List String) (origin : Path) (n : Note) (c : Context) (s : σ) :
    let m := mergeBlock p block origin n c s
    (∀ failure, templateOf p block origin c s = .error failure → m.lines = .error failure ∧ m.target = n) ∧
    ∀ t, templateOf p block origin c s = .ok t →
      m.lines = m.target.blockLines ∧ Note.Absorbs n t m.target ∧ m.target.absorb t = m.target ∧
      ∀ (τ : Type) (q : Prompter τ) block' origin' c' s' t', templateOf q block' origin' c' s' = .ok t' →
        let m' := mergeBlock q block' origin' m.target c' s'
        (∀ e ∈ t'.metadata, Table.find? m'.target.metadata e.1 = some e.2) ∧
        ∀ e ∈ t.metadata, Table.has t'.metadata e.1 = false → Table.find? m'.target.metadata e.1 = some e.2 := by
  intro m
  refine ⟨fun failure h => ?_, fun t h => ?_⟩
  · have hm : m = ⟨.error failure, n, _, _⟩ := Engine.mergeBlock_unread h
    rw [hm]
    exact ⟨rfl, rfl⟩
  · have ht : t.Sound := Note.sound_of_ofLines h
    have hm : m = ⟨(n.absorb t).blockLines, n.absorb t, _, _⟩ := Engine.mergeBlock_read h
    rw [hm]
    refine ⟨rfl, ht.absorbs n, ht.absorb_absorb n, fun τ q block' origin' c' s' t' h' => ?_⟩
    have hlater : Note.Absorbs (n.absorb t) t' ((n.absorb t).absorb t') :=
      (Note.sound_of_ofLines h').absorbs (n.absorb t)
    rw [Engine.mergeBlock_read h']
    refine ⟨hlater.given, fun e he hother => ?_⟩
    rw [hlater.kept e.1 hother]
    exact (ht.absorbs n).given e he

/-- A block that gives a tag, a name and a new value to a note that has others. -/
theorem merge_absorbs_sample :
    let block := ["---", "tags: [b]", "aliases: [y, x]", "status: done", "---"]
    let n : Note :=
      { aliases := ["x"], tags := ["a", "c"], metadata := [(.string "status", .null), (.string "kept", .null)] }
    let n' := (mergeBlock (.silent Unit) block ⟨"t.md"⟩ n {} ()).target
    ∃ t, templateOf (.silent Unit) block ⟨"t.md"⟩ {} () = .ok t ∧
      n'.tags = ["a", "b", "c"] ∧ n'.aliases = ["x", "y"] ∧ n'.metadata.map (·.1.text?) = [some "status", some "kept"] ∧
      n'.metadata.map (·.2.text?) = [some "done", none] ∧ Note.Absorbs n t n' ∧ n'.absorb t = n' := by
  intro block n n'
  have h : templateOf (.silent Unit) block ⟨"t.md"⟩ {} () = .ok _ := eq_ok_getD {} (by decide +kernel)
  obtain ⟨-, habsorbs, hagain, -⟩ := (merge_absorbs (.silent Unit) block ⟨"t.md"⟩ n {} ()).2 _ h
  exact ⟨_, h, by decide +kernel, by decide +kernel, by decide +kernel, by decide +kernel, habsorbs, hagain⟩

end NoteStencil
