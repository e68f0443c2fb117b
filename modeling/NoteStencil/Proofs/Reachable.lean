import NoteStencil.Proofs.Insertion
import NoteStencil.Proofs.Filling
import NoteStencil.Proofs.Sameness
import NoteStencil.Proofs.Values

/-! Notes as they come about: blank, named, or read from lines, and then changed by tags, names, merges, insertions and
clones. Each of these keeps a note tidy and in agreement about whether it has a block, so the mapping that it is
put together as holds all of its metadata, behind the fields of its own and apart from them. -/

namespace NoteStencil

namespace Note

open Yaml

variable {n t source : Note}

/-! ### The shape that is kept -/

/-- A tidy note that knows where its block ends when it has one, and only then. -/
structure Coherent (n : Note) : Prop where
  tidy : n.Tidy
  closes : n.hasFrontmatter = n.closingLine.isSome

namespace Coherent

theorem blank (id : Option String) : Coherent { id } := ⟨Tidy.blank rfl rfl rfl, rfl⟩

theorem of_ofLines {lines : List String} {path : Option Path} (h : ofLines lines path = .ok n) : n.Coherent := by
  obtain ⟨s, m, -, -, rfl⟩ := ofLines_eq_ok_iff.1 h
  refine ⟨Tidy.ofSplit s m path, ?_⟩
  rw [ofSplit_eq, Split.closingLine]
  cases s.hasBlock <;> rfl

theorem addTags (h : n.Coherent) (tags : List String) : (n.addTags tags).Coherent := by
  refine ⟨h.tidy.addTags tags, ?_⟩
  rw [addTags_eq]
  exact h.closes

theorem addAliases (h : n.Coherent) (names : List String) : (n.addAliases names).Coherent := by
  refine ⟨h.tidy.addAliases names, ?_⟩
  rw [addAliases_eq]
  exact h.closes

theorem absorb (h : n.Coherent) (ht : t.Coherent) : (n.absorb t).Coherent := by
  refine ⟨h.tidy.absorb ht.tidy, ?_⟩
  rw [absorb_eq]
  exact h.closes

/-- The place of a block that is written for a note. -/
theorem blocked (h : n.Coherent) (last : Nat) :
    Coherent { n with hasFrontmatter := true, closingLine := some last } :=
  ⟨⟨h.tidy.names, h.tidy.tags, h.tidy.keys, h.tidy.free⟩, rfl⟩

theorem inherit (h : n.Coherent) (source : Note) : (Engine.inherit n source).Coherent := by
  have hidentity : Coherent { n with id := source.id.or n.id, title := n.title.or source.title } :=
    ⟨⟨h.tidy.names, h.tidy.tags, h.tidy.keys, h.tidy.free⟩, h.closes⟩
  exact (hidentity.addAliases source.aliases).addTags source.tags

end Coherent

/-! ### Steps -/

variable {σ : Type} {p : Prompter σ}

theorem Coherent.merged (h : n.Coherent) (block : List String) (origin : Path) (c : Context) (s : σ) :
    (mergeBlock p block origin n c s).target.Coherent := by
  cases hread : ofLines (expandLines p block c s).1 (some origin) with
  | error failure =>
    rw [Engine.mergeBlock_unread hread]
    exact h
  | ok t =>
    rw [Engine.mergeBlock_read hread]
    exact h.absorb (.of_ofLines hread)

theorem read_of_blockNote? {e : Engine} {reference : String} {d : Engine.Desk σ}
    (h : e.blockNote? p reference d = some t) : ∃ lines path, ofLines lines path = .ok t := by
  unfold Engine.blockNote? at h
  split at h
  · cases h
  · split at h
    · exact ⟨_, _, eq_ok_of_toOption h⟩
    · cases h

theorem Coherent.inserted {e : Engine} {reference : String} {at_ : Nat} {d d' : Engine.Desk σ}
    {r : Except Failure Engine.Insertion} (hd : d.target.Coherent) (h : e.insert p reference at_ d = (r, d')) :
    d'.target.Coherent := by
  cases r with
  | error failure =>
    obtain ⟨-, ⟨-, htarget⟩ | ⟨t, ht, -, htarget⟩⟩ := Engine.insert_error_cases h
    · exact htarget ▸ hd
    · obtain ⟨lines, path, hread⟩ := read_of_blockNote? ht
      exact htarget ▸ hd.absorb (.of_ofLines hread)
  | ok ins =>
    obtain ⟨path, lines, -, -, -, ⟨-, hland⟩ | ⟨interior, rest, t, block, -, -, hread, hland⟩⟩ :=
      Engine.lands_of_insert h
    · exact hland.target ▸ hd
    · rw [hland.target]
      exact (hd.absorb (.of_ofLines hread)).blocked _

theorem ofLines_of_ofFile {fs : FileSystem} {path : Path} (h : ofFile fs path = .ok n) :
    ∃ lines, ofLines lines (some path) = .ok n := by
  unfold ofFile at h
  split at h
  · cases h
  · exact ⟨_, h⟩

theorem Coherent.cloned {e : Engine} {reference : String} {destination : Path} {w w' : World σ}
    (h : e.clone p reference destination source w = (.ok n, w')) : n.Coherent := by
  have hcloned := Engine.cloned h
  generalize hr : (Except.ok n : Except Failure Note) = r at hcloned
  cases hcloned with
  | copied =>
    obtain ⟨n', hfile, rfl⟩ := map_eq_ok hr.symm
    obtain ⟨lines, hread⟩ := ofLines_of_ofFile hfile
    exact (Coherent.of_ofLines hread).inherit source
  | _ => cases hr

/-! ### Runs -/

/-- The notes that come about. A merge and an insertion may fail, and a clone needs a source that came about. -/
inductive Reachable : Note → Prop
  | blank : Reachable {}
  | named (id : String) : Reachable { id := some id }
  | read {n : Note} {lines : List String} {path : Option Path} (h : ofLines lines path = .ok n) : Reachable n
  | tag {n : Note} (h : Reachable n) (tag : String) : Reachable (n.addTag tag)
  | name {n : Note} (h : Reachable n) (name : String) : Reachable (n.addAlias name)
  | merged {n : Note} (h : Reachable n) {σ : Type} (p : Prompter σ) (block : List String) (origin : Path)
      (c : Context) (s : σ) : Reachable (mergeBlock p block origin n c s).target
  | inserted {σ : Type} {d : Engine.Desk σ} (h : Reachable d.target) (e : Engine) (p : Prompter σ)
      (reference : String) (at_ : Nat) : Reachable (e.insert p reference at_ d).2.target
  | cloned {source n : Note} (h : Reachable source) {σ : Type} {e : Engine} {p : Prompter σ} {reference : String}
      {destination : Path} {w w' : World σ} (made : e.clone p reference destination source w = (.ok n, w')) :
      Reachable n

theorem Reachable.coherent (h : Reachable n) : n.Coherent := by
  induction h with
  | blank => exact .blank none
  | named id => exact .blank (some id)
  | read h => exact .of_ofLines h
  | tag _ tag ih => exact ih.addTags [tag]
  | name _ name ih => exact ih.addAliases [name]
  | merged _ p block origin c s ih => exact ih.merged block origin c s
  | inserted _ e p reference at_ ih => exact ih.inserted rfl
  | cloned _ made _ => exact .cloned made

/-! ### The canonical mapping -/

/-- The fields that a note has of its own, as entries. -/
def ownEntries (n : Note) : Mapping :=
  n.id.toList.map (fun id => (.string idKey, .string id)) ++ textsEntry aliasesKey n.aliases ++
    textsEntry tagsKey n.tags

theorem frontmatter_eq (h : n.Tidy) : n.frontmatter = n.ownEntries ++ n.metadata := by
  rw [frontmatter, h.filter_metadata, ownEntries]

def ownKeys : List Value := [.string idKey, .string aliasesKey, .string tagsKey]

theorem keys_textsEntry (key : String) (texts : List String) :
    ((textsEntry key texts).map (·.1)).Sublist [.string key] := by
  unfold textsEntry
  split <;> simp

theorem keys_ownEntries (n : Note) : (n.ownEntries.map (·.1)).Sublist ownKeys := by
  have hid : ((n.id.toList.map fun id => ((.string idKey, .string id) : Value × Value)).map (·.1)).Sublist
      [.string idKey] := by
    cases n.id <;> simp
  unfold ownEntries
  rw [List.map_append, List.map_append]
  exact (hid.append (keys_textsEntry aliasesKey n.aliases)).append (keys_textsEntry tagsKey n.tags)

theorem same_string_iff {v : Value} {text : String} : (v == .string text) = true ↔ v = .string text := by
  change Value.same v (.string text) = true ↔ _
  cases v <;> simp [Value.same]

theorem ownKeys_distinct : ownKeys.Pairwise fun a b => (b == a) = false := by
  simp [ownKeys, same_string_iff, ← Bool.not_eq_true, idKey, aliasesKey, tagsKey]

theorem isReserved_ownKeys : ∀ key ∈ ownKeys, isReserved key = true := by decide

/-- A key that reads as none of a note's own is the same as none of them. -/
theorem apart_of_free {key own : Value} (hown : own ∈ ownKeys) (hfree : isReserved key = false) :
    (key == own) = false := by
  apply Bool.eq_false_iff.2
  intro hsame
  have hstring : ∃ text, own = .string text := by
    simp only [ownKeys, List.mem_cons, List.not_mem_nil, or_false] at hown
    rcases hown with rfl | rfl | rfl <;> exact ⟨_, rfl⟩
  obtain ⟨text, rfl⟩ := hstring
  rw [same_string_iff.1 hsame, isReserved_ownKeys _ hown] at hfree
  cases hfree

theorem Tidy.frontmatter_distinct (h : n.Tidy) : Table.Distinct n.frontmatter := by
  have hown : Table.Distinct n.ownEntries := List.pairwise_map.1 (ownKeys_distinct.sublist (keys_ownEntries n))
  rw [frontmatter_eq h]
  refine List.pairwise_append.2 ⟨hown, h.keys, fun own hmem e he => ?_⟩
  exact apart_of_free ((keys_ownEntries n).subset (List.mem_map_of_mem hmem)) (h.free e he)

/-- However a note came about, its names are distinct, no key of its metadata reads as one of its own fields, it has a
block exactly when it knows where that ends, and its mapping is its own fields and then all of its metadata, no key
the same as another. -/
theorem reachable_frontmatter (h : Reachable n) :
    n.aliases.Nodup ∧
    (∀ e ∈ n.metadata, e.1.text? ∉ [some idKey, some aliasesKey, some tagsKey]) ∧
    (n.hasFrontmatter = true ↔ n.closingLine.isSome = true) ∧
    n.frontmatter = n.id.toList.map (fun id => (.string idKey, .string id)) ++ textsEntry aliasesKey n.aliases ++
      textsEntry tagsKey n.tags ++ n.metadata ∧
    Table.Distinct n.frontmatter ∧
    ∀ e ∈ n.metadata, Table.find? n.frontmatter e.1 = some e.2 := by
  obtain ⟨htidy, hcloses⟩ := h.coherent
  have hdistinct := htidy.frontmatter_distinct
  refine ⟨htidy.names, fun e he hkey => ?_, by rw [hcloses], frontmatter_eq htidy, hdistinct, fun e he => ?_⟩
  · have hreserved : isReserved e.1 = true := isReserved_iff.2 (by simpa using hkey)
    exact Bool.false_ne_true ((htidy.free e he).symm.trans hreserved)
  · apply Table.find?_of_distinct hdistinct e
    rw [frontmatter_eq htidy]
    exact List.mem_append_right _ he

/-- A key that is `tags` behind a tag of its own, and one that is not. -/
theorem reachable_frontmatter_tagged :
    ∃ n, ofLines ["---", "!x tags: [b]", "!x k: v", "---", "body"] none = .ok n ∧ n.closingLine = some 3 ∧
      (n.addTag "a").frontmatter =
        [(.string tagsKey, .sequence [.string "a", .string "b"]), (.tagged "x" (.string "k"), .string "v")] ∧
      Table.find? (n.addTag "a").frontmatter (.tagged "x" (.string "k")) = some (.string "v") := by
  obtain ⟨n, h, hclosing, hfrontmatter, hmetadata⟩ :
      ∃ n, ofLines ["---", "!x tags: [b]", "!x k: v", "---", "body"] none = .ok n ∧ n.closingLine = some 3 ∧
        (n.addTag "a").frontmatter =
          [(.string tagsKey, .sequence [.string "a", .string "b"]), (.tagged "x" (.string "k"), .string "v")] ∧
        n.metadata = [(.tagged "x" (.string "k"), .string "v")] :=
    ⟨_, eq_ok_getD {} (by decide +kernel), by decide +kernel, by decide +kernel, by decide +kernel⟩
  obtain ⟨-, -, -, -, -, hfound⟩ := reachable_frontmatter (.tag (.read h) "a")
  have hmem : (.tagged "x" (.string "k"), .string "v") ∈ (n.addTag "a").metadata := by
    rw [addTag, hmetadata]
    exact List.mem_singleton_self _
  exact ⟨n, h, hclosing, hfrontmatter, hfound _ hmem⟩

end Note
end NoteStencil
