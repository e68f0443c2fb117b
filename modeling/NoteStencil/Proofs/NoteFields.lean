import NoteStencil.Merge
import NoteStencil.Proofs.Leading

/-! What operations on notes do to each field, and the shape of a note that they keep: other names do not repeat, tags
ascend, a metadata key is not the same as an earlier one, and none reads as a field of its own. A note of this
shape is read off the mapping that it is put together as. -/

namespace NoteStencil
namespace Note

/-! ### Tags, names, entries -/

theorem mem_insertTag {t tag : String} {ts : List String} : t ∈ insertTag tag ts ↔ t = tag ∨ t ∈ ts := by
  induction ts with
  | nil => simp [insertTag]
  | cons u rest ih =>
    unfold insertTag
    split
    · next h => simp [h]
    · split
      · simp
      · simp only [List.mem_cons, ih, or_left_comm]

theorem insertTag_ascending {tag : String} {ts : List String} (h : ts.Pairwise (· < ·)) :
    (insertTag tag ts).Pairwise (· < ·) := by
  induction ts with
  | nil => simp [insertTag]
  | cons u rest ih =>
    obtain ⟨hu, hrest⟩ := List.pairwise_cons.1 h
    unfold insertTag
    split
    · exact h
    · next hne =>
      split
      · next hlt =>
        refine .cons (fun t ht => ?_) h
        rcases List.mem_cons.1 ht with rfl | ht
        · exact hlt
        · exact String.lt_trans hlt (hu t ht)
      · next hge =>
        refine .cons (fun t ht => ?_) (ih hrest)
        rcases mem_insertTag.1 ht with rfl | ht
        · exact Std.lt_of_le_of_ne (String.not_lt.1 hge) (Ne.symm hne)
        · exact hu t ht

theorem insertTag_last {tag : String} {ts : List String} (h : ∀ t ∈ ts, t < tag) :
    insertTag tag ts = ts ++ [tag] := by
  induction ts with
  | nil => rfl
  | cons u rest ih =>
    have hu : u < tag := h u (by simp)
    have hne : tag ≠ u := fun he => String.lt_irrefl u (he ▸ hu)
    have hge : ¬ tag < u := fun hlt => String.lt_irrefl u (String.lt_trans hu hlt)
    simp only [insertTag, if_neg hne, if_neg hge, List.cons_append]
    rw [ih fun t ht => h t (List.mem_cons_of_mem _ ht)]

def joinTags (ts new : List String) : List String := new.foldl (fun acc tag => insertTag tag acc) ts

def joinNames (names new : List String) : List String :=
  new.foldl (fun acc name => if name ∈ acc then acc else acc ++ [name]) names

def joinEntries (m new : Yaml.Mapping) : Yaml.Mapping := new.foldl (fun acc e => Table.put e.1 e.2 acc) m

theorem joinTags_ascending {ts : List String} (new : List String) (h : ts.Pairwise (· < ·)) :
    (joinTags ts new).Pairwise (· < ·) := by
  induction new generalizing ts with
  | nil => exact h
  | cons tag rest ih => exact ih (insertTag_ascending h)

theorem joinTags_append {ts new : List String} (h : (ts ++ new).Pairwise (· < ·)) :
    joinTags ts new = ts ++ new := by
  induction new generalizing ts with
  | nil => simp [joinTags]
  | cons tag rest ih =>
    have hlast : ∀ t ∈ ts, t < tag := fun t ht => (List.pairwise_append.1 h).2.2 t ht tag (by simp)
    rw [List.append_cons] at h ⊢
    rw [← ih h, ← insertTag_last hlast]
    rfl

theorem joinNames_nodup {names : List String} (new : List String) (h : names.Nodup) :
    (joinNames names new).Nodup := by
  induction new generalizing names with
  | nil => exact h
  | cons name rest ih =>
    rw [joinNames, List.foldl_cons]
    split
    · exact ih h
    · next hmem =>
      refine ih (List.nodup_append.2 ⟨h, by simp, fun a ha b hb => ?_⟩)
      rw [List.mem_singleton.1 hb]
      exact fun he => hmem (he ▸ ha)

theorem joinNames_append {names new : List String} (h : (names ++ new).Nodup) :
    joinNames names new = names ++ new := by
  induction new generalizing names with
  | nil => simp [joinNames]
  | cons name rest ih =>
    have hmem : name ∉ names := fun hm => (List.nodup_append.1 h).2.2 name hm name (by simp) rfl
    rw [List.append_cons] at h ⊢
    rw [← ih h, joinNames, List.foldl_cons, if_neg hmem]
    rfl

theorem mem_joinTags {t : String} {ts new : List String} : t ∈ joinTags ts new ↔ t ∈ ts ∨ t ∈ new := by
  induction new generalizing ts with
  | nil => simp [joinTags]
  | cons tag rest ih =>
    have hrest : t ∈ joinTags ts (tag :: rest) ↔ t ∈ insertTag tag ts ∨ t ∈ rest := ih
    rw [hrest, mem_insertTag, List.mem_cons, or_assoc, or_left_comm]

/-- The new names come behind those that are there, each once. -/
theorem joinNames_eq (names new : List String) :
    joinNames names new = names ++ (new.filter (· ∉ names)).eraseDups := by
  induction new generalizing names with
  | nil => simp [joinNames]
  | cons name rest ih =>
    rw [joinNames, List.foldl_cons]
    by_cases hmem : name ∈ names
    · rw [if_pos hmem, List.filter_cons_of_neg (by simpa using hmem)]
      exact ih names
    · have hrest : (rest.filter (· ∉ names ++ [name])) = (rest.filter (· ∉ names)).filter (fun n => !n == name) := by
        rw [List.filter_filter]
        refine List.filter_congr fun n _ => ?_
        by_cases hn : n = name <;> simp [hn]
      rw [if_neg hmem, List.filter_cons_of_pos (by simpa using hmem), List.eraseDups_cons, ← hrest]
      exact (ih (names ++ [name])).trans (List.append_assoc _ _ _)

theorem mem_joinNames {n : String} {names new : List String} : n ∈ joinNames names new ↔ n ∈ names ∨ n ∈ new := by
  rw [joinNames_eq, List.mem_append, List.mem_eraseDups, List.mem_filter]
  by_cases h : n ∈ names <;> simp [h]

/-- Names that were joined before bring nothing more than each by itself. -/
theorem joinNames_joinNames (names mid new : List String) :
    joinNames names (joinNames mid new) = joinNames (joinNames names mid) new := by
  induction new generalizing mid with
  | nil => rfl
  | cons name rest ih =>
    have hnext : joinNames mid (name :: rest) = joinNames (joinNames mid [name]) rest := rfl
    have hlast : joinNames names (joinNames mid [name]) = joinNames (joinNames names mid) [name] := by
      by_cases hmem : name ∈ mid
      · have hthere : name ∈ joinNames names mid := mem_joinNames.2 (.inr hmem)
        simp [joinNames_eq mid, joinNames_eq (joinNames names mid), hmem, hthere]
      · simp [hmem, joinNames, List.foldl_append]
    rw [hnext, ih, hlast]
    rfl

end Note

namespace Table

variable {κ α : Type} [BEq κ]

/-- No key is the same as an earlier one. -/
def Distinct (t : Table κ α) : Prop := t.Pairwise fun a b => (b.1 == a.1) = false

theorem has_eq_false_iff {t : Table κ α} {k : κ} : t.has k = false ↔ ∀ e ∈ t, (k == e.1) = false := by
  simp [has, find?]

theorem key_of_mem_put {k : κ} {v : α} {t : Table κ α} {e : κ × α} (h : e ∈ t.put k v) :
    e.1 = k ∨ ∃ e' ∈ t, e.1 = e'.1 := by
  induction t with
  | nil => simp only [put, List.mem_singleton] at h; simp [h]
  | cons d rest ih =>
    unfold put at h
    split at h
    · rcases List.mem_cons.1 h with rfl | h
      · exact .inr ⟨d, by simp⟩
      · exact .inr ⟨e, by simp [h]⟩
    · rcases List.mem_cons.1 h with rfl | h
      · exact .inr ⟨e, by simp⟩
      · obtain hk | ⟨e', he', heq⟩ := ih h
        · exact .inl hk
        · exact .inr ⟨e', by simp [he'], heq⟩

theorem put_distinct {t : Table κ α} (k : κ) (v : α) (h : Distinct t) : Distinct (t.put k v) := by
  induction t with
  | nil => simp [Distinct, put]
  | cons d rest ih =>
    obtain ⟨hd, hrest⟩ := List.pairwise_cons.1 h
    unfold put
    split
    · exact .cons hd hrest
    · next hne =>
      refine .cons (fun e he => ?_) (ih hrest)
      obtain hk | ⟨e', he', heq⟩ := key_of_mem_put he
      · simpa [hk] using hne
      · exact heq ▸ hd e' he'

theorem put_last {t : Table κ α} {k : κ} (v : α) (h : ∀ e ∈ t, (k == e.1) = false) :
    t.put k v = t ++ [(k, v)] := by
  induction t with
  | nil => rfl
  | cons d rest ih =>
    simp only [put, h d (by simp), Bool.false_eq_true, if_false, List.cons_append]
    rw [ih fun e he => h e (List.mem_cons_of_mem _ he)]

theorem find?_of_distinct [ReflBEq κ] {t : Table κ α} (h : Distinct t) : ∀ e ∈ t, t.find? e.1 = some e.2 := by
  induction t with
  | nil => simp
  | cons d rest ih =>
    obtain ⟨hd, hrest⟩ := List.pairwise_cons.1 h
    rw [List.forall_mem_cons]
    refine ⟨by simp [find?], fun e he => ?_⟩
    have hbehind : find? rest e.1 = some e.2 := ih hrest e he
    simpa [find?, hd e he] using hbehind

end Table

namespace Note

theorem joinEntries_distinct {m : Yaml.Mapping} (new : Yaml.Mapping) (h : Table.Distinct m) :
    Table.Distinct (joinEntries m new) := by
  induction new generalizing m with
  | nil => exact h
  | cons e rest ih => exact ih (Table.put_distinct e.1 e.2 h)

theorem joinEntries_append {m new : Yaml.Mapping} (h : Table.Distinct (m ++ new)) :
    joinEntries m new = m ++ new := by
  induction new generalizing m with
  | nil => simp [joinEntries]
  | cons e rest ih =>
    have hlast : ∀ d ∈ m, (e.1 == d.1) = false := fun d hd =>
      (List.pairwise_append.1 h).2.2 d hd e (by simp)
    rw [List.append_cons] at h ⊢
    rw [← ih h, ← Table.put_last e.2 hlast]
    rfl

theorem key_of_mem_joinEntries {m new : Yaml.Mapping} {e : Yaml.Value × Yaml.Value}
    (h : e ∈ joinEntries m new) : ∃ e' ∈ m ++ new, e.1 = e'.1 := by
  induction new generalizing m with
  | nil => exact ⟨e, by simpa [joinEntries] using h, rfl⟩
  | cons d rest ih =>
    obtain ⟨e', he', heq⟩ := ih h
    rcases List.mem_append.1 he' with he' | he'
    · obtain hk | ⟨d', hd', hk⟩ := Table.key_of_mem_put he'
      · exact ⟨d, by simp, heq.trans hk⟩
      · exact ⟨d', by simp [hd'], heq.trans hk⟩
    · exact ⟨e', by simp [he'], heq⟩

/-! ### Fields -/

theorem addTags_eq (n : Note) (tags : List String) : n.addTags tags = { n with tags := joinTags n.tags tags } := by
  induction tags generalizing n with
  | nil => rfl
  | cons tag rest ih => exact ih (n.addTag tag)

theorem addAlias_eq (n : Note) (name : String) : n.addAlias name = { n with aliases := joinNames n.aliases [name] } := by
  unfold addAlias joinNames
  simp only [List.foldl_cons, List.foldl_nil]
  split <;> rfl

theorem addAliases_eq (n : Note) (names : List String) :
    n.addAliases names = { n with aliases := joinNames n.aliases names } := by
  induction names generalizing n with
  | nil => rfl
  | cons name rest ih =>
    refine (ih (n.addAlias name)).trans ?_
    rw [addAlias_eq]
    rfl

theorem absorb_eq (n template : Note) :
    n.absorb template = { n with
      metadata := joinEntries n.metadata template.metadata
      tags := joinTags n.tags template.tags
      aliases := joinNames n.aliases template.aliases } := by
  rw [absorb, addAliases_eq, addTags_eq]
  rfl

/-! ### Entries that are read -/

theorem texts_strings (names : List String) : texts (.sequence (names.map .string)) = names := by
  induction names with
  | nil => rfl
  | cons name rest ih => simpa [texts, scalarText?] using ih

theorem readEntry_aliases (n : Note) (names : List String) :
    n.readEntry (.string aliasesKey, .sequence (names.map .string)) = n.addAliases names := by
  have h : aliasesKey ≠ idKey := by decide
  simp [readEntry, Yaml.Value.text?, texts_strings, h]

theorem readEntry_tags (n : Note) (tags : List String) :
    n.readEntry (.string tagsKey, .sequence (tags.map .string)) = n.addTags tags := by
  have h : tagsKey ≠ idKey := by decide
  have h' : tagsKey ≠ aliasesKey := by decide
  simp [readEntry, Yaml.Value.text?, texts_strings, h, h']

theorem isReserved_iff {key : Yaml.Value} :
    isReserved key = true ↔ key.text? = some idKey ∨ key.text? = some aliasesKey ∨ key.text? = some tagsKey := by
  unfold isReserved
  cases key.text? <;> simp [or_assoc]

theorem readEntry_free (n : Note) {e : Yaml.Value × Yaml.Value} (h : isReserved e.1 = false) :
    n.readEntry e = { n with metadata := Table.put e.1 e.2 n.metadata } := by
  have hk : ¬ isReserved e.1 = true := by simp [h]
  rw [isReserved_iff, not_or, not_or] at hk
  rw [readEntry, if_neg hk.1, if_neg hk.2.1, if_neg hk.2.2]

theorem foldl_readEntry_free {n : Note} {es : Yaml.Mapping} (h : ∀ e ∈ es, isReserved e.1 = false) :
    es.foldl readEntry n = { n with metadata := joinEntries n.metadata es } := by
  induction es generalizing n with
  | nil => rfl
  | cons e rest ih =>
    rw [List.foldl_cons, readEntry_free n (h e (by simp)), ih fun d hd => h d (by simp [hd])]
    rfl

/-- What an entry does not touch can be set before or after it. -/
theorem readEntry_frame (n : Note) (e : Yaml.Value × Yaml.Value) (title : Option String) (path : Option Path)
    (block : Bool) (line : Option Nat) (body : List String) :
    readEntry { n with title, path, hasFrontmatter := block, closingLine := line, body } e =
      { readEntry n e with title, path, hasFrontmatter := block, closingLine := line, body } := by
  unfold readEntry
  split
  · rfl
  · split
    · rw [addAliases_eq, addAliases_eq]
    · split
      · rw [addTags_eq, addTags_eq]
      · rfl

theorem foldl_readEntry_frame (n : Note) (es : Yaml.Mapping) (title : Option String) (path : Option Path)
    (block : Bool) (line : Option Nat) (body : List String) :
    es.foldl readEntry { n with title, path, hasFrontmatter := block, closingLine := line, body } =
      { es.foldl readEntry n with title, path, hasFrontmatter := block, closingLine := line, body } := by
  induction es generalizing n with
  | nil => rfl
  | cons e rest ih => rw [List.foldl_cons, List.foldl_cons, readEntry_frame, ih]

/-- The fields that a mapping gives. -/
def ofMapping (m : Yaml.Mapping) : Note := m.foldl readEntry {}

theorem ofSplit_eq (s : Split) (m : Yaml.Mapping) (path : Option Path) :
    ofSplit s m path = { ofMapping m with
      id := (ofMapping m).id.or (path.bind Path.fileStem)
      title := headingOf s.body
      path
      hasFrontmatter := s.hasBlock
      closingLine := s.closingLine
      body := s.body } := by
  unfold ofSplit ofMapping
  rw [foldl_readEntry_frame {} m none path s.hasBlock s.closingLine []]

/-! ### Shape -/

structure Tidy (n : Note) : Prop where
  names : n.aliases.Nodup
  tags : n.tags.Pairwise (· < ·)
  keys : Table.Distinct n.metadata
  free : ∀ e ∈ n.metadata, isReserved e.1 = false

namespace Tidy

variable {n : Note}

theorem blank {n : Note} (ha : n.aliases = []) (ht : n.tags = []) (hm : n.metadata = []) : n.Tidy :=
  ⟨by simp [ha], by simp [ht], by simp [hm, Table.Distinct], by simp [hm]⟩

theorem addTags (h : n.Tidy) (tags : List String) : (n.addTags tags).Tidy := by
  rw [addTags_eq]
  exact ⟨h.names, joinTags_ascending tags h.tags, h.keys, h.free⟩

theorem addAliases (h : n.Tidy) (names : List String) : (n.addAliases names).Tidy := by
  rw [addAliases_eq]
  exact ⟨joinNames_nodup names h.names, h.tags, h.keys, h.free⟩

theorem putMetadata (h : n.Tidy) {es : Yaml.Mapping} (hes : ∀ e ∈ es, isReserved e.1 = false) :
    (n.putMetadata es).Tidy := by
  refine ⟨h.names, h.tags, joinEntries_distinct es h.keys, fun e he => ?_⟩
  obtain ⟨e', he', heq⟩ := key_of_mem_joinEntries he
  rw [heq]
  rcases List.mem_append.1 he' with he' | he'
  · exact h.free e' he'
  · exact hes e' he'

theorem absorb (h : n.Tidy) {template : Note} (ht : template.Tidy) : (n.absorb template).Tidy :=
  ((h.putMetadata ht.free).addTags _).addAliases _

theorem readEntry (h : n.Tidy) (e : Yaml.Value × Yaml.Value) : (n.readEntry e).Tidy := by
  by_cases hr : isReserved e.1 = true
  · unfold Note.readEntry
    split
    · exact ⟨h.names, h.tags, h.keys, h.free⟩
    · split
      · exact h.addAliases _
      · split
        · exact h.addTags _
        · next h1 h2 h3 =>
          rcases isReserved_iff.1 hr with hk | hk | hk
          · exact absurd hk h1
          · exact absurd hk h2
          · exact absurd hk h3
  · have hr : isReserved e.1 = false := by simpa using hr
    rw [readEntry_free n hr]
    have hes : ∀ d ∈ [e], isReserved d.1 = false := by simpa using hr
    exact h.putMetadata hes

theorem ofMapping (m : Yaml.Mapping) : (ofMapping m).Tidy := by
  have hfold : ∀ (n : Note), n.Tidy → (m.foldl Note.readEntry n).Tidy := by
    induction m with
    | nil => exact fun n h => h
    | cons e rest ih => exact fun n h => ih _ (h.readEntry e)
  exact hfold {} (blank rfl rfl rfl)

theorem ofSplit (s : Split) (m : Yaml.Mapping) (path : Option Path) : (ofSplit s m path).Tidy := by
  have h := ofMapping m
  rw [ofSplit_eq]
  exact ⟨h.names, h.tags, h.keys, h.free⟩

end Tidy

/-! ### The canonical mapping read back -/

theorem foldl_textsEntry_aliases (n : Note) (names : List String) :
    (textsEntry aliasesKey names).foldl readEntry n = n.addAliases names := by
  unfold textsEntry
  split
  · next h => rw [h]; rfl
  · exact readEntry_aliases n names

theorem foldl_textsEntry_tags (n : Note) (tags : List String) :
    (textsEntry tagsKey tags).foldl readEntry n = n.addTags tags := by
  unfold textsEntry
  split
  · next h => rw [h]; rfl
  · exact readEntry_tags n tags

theorem Tidy.filter_metadata {n : Note} (h : n.Tidy) : n.metadata.filter (!isReserved ·.1) = n.metadata := by
  rw [List.filter_eq_self]
  exact fun e he => by simp [h.free e he]

theorem ofMapping_frontmatter {n : Note} (h : n.Tidy) :
    ofMapping n.frontmatter = { id := n.id, aliases := n.aliases, tags := n.tags, metadata := n.metadata } := by
  have hid : (n.id.toList.map fun id => ((.string idKey, .string id) : Yaml.Value × Yaml.Value)).foldl readEntry {} =
      ({ id := n.id } : Note) := by
    cases n.id <;> rfl
  unfold ofMapping frontmatter
  rw [h.filter_metadata, List.foldl_append, List.foldl_append, List.foldl_append, hid, foldl_textsEntry_aliases,
    foldl_textsEntry_tags, foldl_readEntry_free h.free, addAliases_eq, addTags_eq]
  simp only
  have hnames : joinNames [] n.aliases = n.aliases := joinNames_append h.names
  have htags : joinTags [] n.tags = n.tags := joinTags_append h.tags
  have hkeys : joinEntries [] n.metadata = n.metadata := joinEntries_append h.keys
  rw [hnames, htags, hkeys]

/-! ### Lines that are read -/

/-- The entries of a document's block, none when it has no block. -/
def entriesOf (s : Split) (origin : Path) : Except Failure Yaml.Mapping :=
  if s.hasBlock then readMapping s.interior origin else .ok []

theorem ofLines_eq_ok_iff {lines : List String} {path : Option Path} {n : Note} :
    ofLines lines path = .ok n ↔
      ∃ s m, Divides lines s ∧ entriesOf s (path.getD noOrigin) = .ok m ∧ ofSplit s m path = n := by
  unfold ofLines entriesOf
  constructor
  · intro h
    cases hs : (LineCursor.ofLines lines (path.getD noOrigin)).split with
    | error failure => simp [hs] at h
    | ok s =>
      refine ⟨s, ?_⟩
      simp only [hs] at h
      split at h
      · next hb =>
        obtain ⟨m, hm, hn⟩ := map_eq_ok h
        exact ⟨m, split_ofLines_iff.1 hs, by simp [hb, hm], hn⟩
      · next hb => exact ⟨[], split_ofLines_iff.1 hs, by simp [hb], Except.ok.inj h⟩
  · rintro ⟨s, m, hd, hm, rfl⟩
    simp only [split_ofLines_iff.2 hd]
    split at hm
    · next hb => simp [hb, hm, Except.map]
    · next hb =>
      cases hm
      simp [hb]

end Note
end NoteStencil
