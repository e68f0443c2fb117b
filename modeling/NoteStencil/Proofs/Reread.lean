import NoteStencil.Proofs.NoteFields
import NoteStencil.Proofs.WrittenLines

/-! Notes written as lines and read again. The lines divide as they were put together, and the entries between the
delimiters are read from the written mapping without the line feed at its end. All fields come back exactly when
what is read there gives them; when it is the mapping that was written, it does. -/

namespace NoteStencil
namespace Note

/-- A note read from lines, with tags, names and entries put in since; no entry has the key of another field. -/
inductive Edited (lines : List String) (path : Option Path) : Note → Prop
  | read {n : Note} (h : ofLines lines path = .ok n) : Edited lines path n
  | tag {n : Note} (h : Edited lines path n) (tag : String) : Edited lines path (n.addTag tag)
  | name {n : Note} (h : Edited lines path n) (name : String) : Edited lines path (n.addAlias name)
  | entry {n : Note} (h : Edited lines path n) {key : Yaml.Value} (value : Yaml.Value)
      (free : isReserved key = false) : Edited lines path (n.putMetadata [(key, value)])

/-- What reading the note's lines again relies on. -/
structure Rereadable (n : Note) : Prop where
  tidy : n.Tidy
  /-- An identity that is missing is none that the path would give. -/
  stemless : n.id = none → n.path.bind Path.fileStem = none
  /-- The body of a note without block opens none. -/
  plain : n.hasFrontmatter = false → n.body.head? ≠ some delimiter

theorem rereadable_of_ofLines {lines : List String} {path : Option Path} {n : Note}
    (h : ofLines lines path = .ok n) : n.Rereadable := by
  obtain ⟨s, m, hd, -, rfl⟩ := ofLines_eq_ok_iff.1 h
  refine ⟨Tidy.ofSplit s m path, ?_, ?_⟩
  · rw [ofSplit_eq]
    exact fun hid => (Option.or_eq_none_iff.1 hid).2
  · rw [ofSplit_eq]
    intro hb
    cases hd with
    | plain hfirst => exact hfirst
    | block _ => cases hb

theorem Edited.rereadable {lines : List String} {path : Option Path} {n : Note} (h : Edited lines path n) :
    n.Rereadable := by
  induction h with
  | read h => exact rereadable_of_ofLines h
  | tag _ tag ih => exact ⟨ih.tidy.addTags [tag], ih.stemless, ih.plain⟩
  | @name n _ name ih =>
    refine ⟨ih.tidy.addAliases [name], ?_, ?_⟩
    · rw [addAlias_eq]
      exact ih.stemless
    · rw [addAlias_eq]
      exact ih.plain
  | entry _ value free ih => exact ⟨ih.tidy.putMetadata (by simpa using free), ih.stemless, ih.plain⟩

/-! ### What is lost and what is kept -/

/-- The same identity, names, tags, metadata and body. -/
structure Kept (n n' : Note) : Prop where
  id : n'.id = n.id
  aliases : n'.aliases = n.aliases
  tags : n'.tags = n.tags
  metadata : n'.metadata = n.metadata
  body : n'.body = n.body

/-- Entries from which the note gets back all that a block holds, the identity with the help of its path. -/
structure Restores (m : Yaml.Mapping) (n : Note) : Prop where
  id : (ofMapping m).id.or (n.path.bind Path.fileStem) = n.id
  aliases : (ofMapping m).aliases = n.aliases
  tags : (ofMapping m).tags = n.tags
  metadata : (ofMapping m).metadata = n.metadata

theorem kept_ofSplit_iff {n : Note} {s : Split} {m : Yaml.Mapping} (hbody : s.body = n.body) :
    Kept n (ofSplit s m n.path) ↔ Restores m n := by
  rw [ofSplit_eq]
  exact ⟨fun h => ⟨h.id, h.aliases, h.tags, h.metadata⟩, fun h => ⟨h.id, h.aliases, h.tags, h.metadata, hbody⟩⟩

theorem Rereadable.restores {n : Note} (h : n.Rereadable) : Restores n.frontmatter n := by
  refine ⟨?_, ?_, ?_, ?_⟩ <;> rw [ofMapping_frontmatter h.tidy]
  cases hid : n.id with
  | none => exact h.stemless hid
  | some id => rfl

/-! ### The lines of a note -/

/-- The entries that a value stands for as a whole block. -/
def entries? : Yaml.Value → Option Yaml.Mapping
  | .null => some []
  | .mapping m => some m
  | _ => none

theorem readMapping_eq_ok_iff {interior : List String} {origin : Path} {m : Yaml.Mapping} :
    readMapping interior origin = .ok m ↔ ∃ v, Yaml.parse (joinLines interior) = .ok v ∧ entries? v = some m := by
  unfold readMapping
  cases Yaml.parse (joinLines interior) with
  | error reason => simp
  | ok v => cases v <;> simp [entries?]

theorem readMapping_nil (origin : Path) : readMapping [] origin = .ok [] :=
  readMapping_eq_ok_iff.2 ⟨.null, rfl, rfl⟩

/-- A text without the line feed at its end. -/
def unended (text : String) : String := String.ofList (chomp text.toList)

theorem readMapping_write_iff {w m : Yaml.Mapping} {text : String} {origin : Path} (h : Yaml.write? w = some text) :
    readMapping (textLines text) origin = .ok m ↔
      ∃ v, Yaml.parse (unended text) = .ok v ∧ entries? v = some m := by
  rw [readMapping_eq_ok_iff, joinLines_textLines (Yaml.return_not_mem_write h), unended]

theorem entriesOf_block (interior body : List String) (origin : Path) :
    entriesOf ⟨delimiter :: interior ++ [delimiter], body, true⟩ origin = readMapping interior origin := by
  simp [entriesOf, Split.interior]

/-- How the lines of a note divide: into its body and a block that holds what was written. -/
theorem divides_toLines {n : Note} {out : List String} (h : n.Rereadable) (hout : n.toLines = .ok out)
    (origin : Path) :
    ∃ s, Divides out s ∧ s.body = n.body ∧
      ((n.frontmatter = [] ∧ entriesOf s origin = .ok []) ∨
        ∃ text, n.frontmatter ≠ [] ∧ Yaml.write? n.frontmatter = some text ∧
          entriesOf s origin = readMapping (textLines text) origin) := by
  unfold toLines at hout
  split at hout
  · obtain ⟨block, hblock, rfl⟩ := map_eq_ok hout
    obtain ⟨interior, hinterior, rfl⟩ := map_eq_ok hblock
    have hd : Divides (delimiter :: interior ++ delimiter :: n.body)
        ⟨delimiter :: interior ++ [delimiter], n.body, true⟩ := .block (delimiter_not_mem_metadataLines hinterior)
    rw [List.append_cons] at hd
    refine ⟨_, hd, rfl, ?_⟩
    rw [entriesOf_block]
    rcases metadataLines_eq_ok hinterior with ⟨hnil, rfl⟩ | ⟨text, hne, hw, rfl⟩
    · exact .inl ⟨hnil, readMapping_nil origin⟩
    · exact .inr ⟨text, hne, hw, rfl⟩
  · next hblock =>
    cases hout
    have hblock : n.hasFrontmatter = false ∧ n.frontmatter = [] := by
      simpa [hasBlock] using hblock
    exact ⟨_, .plain (h.plain hblock.1), rfl, .inl ⟨hblock.2, rfl⟩⟩

/-- The reading of the note's own lines, in terms of what stands between the delimiters. -/
theorem kept_toLines_iff {n : Note} {out : List String} (h : n.Rereadable) (hout : n.toLines = .ok out) :
    (∃ n', ofLines out n.path = .ok n' ∧ Kept n n') ↔
      n.frontmatter = [] ∨
        ∃ text v m, Yaml.write? n.frontmatter = some text ∧ Yaml.parse (unended text) = .ok v ∧
          entries? v = some m ∧ Restores m n := by
  obtain ⟨s, hd, hbody, hentries⟩ := divides_toLines h hout (n.path.getD noOrigin)
  have hkept : (∃ n', ofLines out n.path = .ok n' ∧ Kept n n') ↔
      ∃ m, entriesOf s (n.path.getD noOrigin) = .ok m ∧ Restores m n := by
    constructor
    · rintro ⟨n', hread, hkept⟩
      obtain ⟨s', m, hd', hm, rfl⟩ := ofLines_eq_ok_iff.1 hread
      rw [hd'.unique hd] at hm hkept
      exact ⟨m, hm, (kept_ofSplit_iff hbody).1 hkept⟩
    · rintro ⟨m, hm, hrestores⟩
      exact ⟨_, ofLines_eq_ok_iff.2 ⟨s, m, hd, hm, rfl⟩, (kept_ofSplit_iff hbody).2 hrestores⟩
  rw [hkept]
  rcases hentries with ⟨hnil, hentries⟩ | ⟨text, hne, hw, hentries⟩
  · refine ⟨fun _ => .inl hnil, fun _ => ⟨[], hentries, ?_⟩⟩
    rw [← hnil]
    exact h.restores
  · rw [hentries]
    constructor
    · rintro ⟨m, hm, hrestores⟩
      obtain ⟨v, hv, hve⟩ := (readMapping_write_iff hw).1 hm
      exact .inr ⟨text, v, m, hw, hv, hve, hrestores⟩
    · rintro (hnil | ⟨text', v, m, hw', hv, hve, hrestores⟩)
      · exact absurd hnil hne
      · cases hw.symm.trans hw'
        exact ⟨m, (readMapping_write_iff hw).2 ⟨v, hv, hve⟩, hrestores⟩

/-- A note's lines read as a note with the same fields exactly when its metadata, written without a line feed at the
end, reads as entries that restore them. -/
theorem reread_keeps_iff {lines out : List String} {path : Option Path} {n : Note} (h : Edited lines path n)
    (hout : n.toLines = .ok out) :
    ((∃ n', ofLines out n.path = .ok n' ∧ Kept n n') ↔
        n.frontmatter = [] ∨
          ∃ text v m, Yaml.write? n.frontmatter = some text ∧ Yaml.parse (unended text) = .ok v ∧
            entries? v = some m ∧ Restores m n) ∧
      ∀ text, Yaml.write? n.frontmatter = some text → Yaml.parse (unended text) = .ok (.mapping n.frontmatter) →
        ∃ n', ofLines out n.path = .ok n' ∧ Kept n n' := by
  have hiff := kept_toLines_iff h.rereadable hout
  refine ⟨hiff, fun text hw hv => hiff.2 (.inr ?_)⟩
  exact ⟨text, _, n.frontmatter, hw, hv, rfl, h.rereadable.restores⟩

/-- Text with a line feed at its end, as the last of the metadata: written as a literal block, it loses the line feed.
-/
theorem reread_drops_last_feed :
    ∃ n out n', ofLines ["---", "desc: \"x\\n\"", "---", "body"] (some ⟨"n.md"⟩) = .ok n ∧ n.toLines = .ok out ∧
      ofLines out n.path = .ok n' ∧
      n.metadata.map (·.2.text?) = [some "x\n"] ∧ n'.metadata.map (·.2.text?) = [some "x"] ∧
      ∀ text v m, Yaml.write? n.frontmatter = some text → Yaml.parse (unended text) = .ok v → entries? v = some m →
        ¬ Restores m n := by
  have hruns : ∃ n out n', ofLines ["---", "desc: \"x\\n\"", "---", "body"] (some ⟨"n.md"⟩) = .ok n ∧
      n.toLines = .ok out ∧ ofLines out n.path = .ok n' ∧
      n.metadata.map (·.2.text?) = [some "x\n"] ∧ n'.metadata.map (·.2.text?) = [some "x"] :=
    ⟨_, _, _, eq_ok_getD {} (by decide +kernel), eq_ok_getD [] (by decide +kernel), eq_ok_getD {} (by decide +kernel),
      by decide +kernel, by decide +kernel⟩
  obtain ⟨n, out, n', hread, hout, hread', hmeta, hmeta'⟩ := hruns
  refine ⟨n, out, n', hread, hout, hread', hmeta, hmeta', fun text v m hw hv hve hrestores => ?_⟩
  obtain ⟨n'', hread'', hkept⟩ := (reread_keeps_iff (.read hread) hout).1.2 (.inr ⟨text, v, m, hw, hv, hve, hrestores⟩)
  cases hread'.symm.trans hread''
  rw [hkept.metadata, hmeta] at hmeta'
  exact absurd hmeta' (by decide)

end Note
end NoteStencil
