import NoteStencil.Proofs.Described
import NoteStencil.Proofs.Reread
import NoteStencil.Proofs.Values

/-! A block that is written for a note and read again. Before any body it gives the note's names, tags and metadata
back, and the identity that the note has or its path gives, as long as the written metadata reads as what it was. So
after a merge the buffer is read as the note that the merge left. -/

namespace NoteStencil
namespace Note

/-- The lines of the metadata read as the entries that were written. -/
def ReadsBack (n : Note) : Prop :=
  ∀ lines, n.metadataLines = .ok lines → ∃ v, Yaml.parse (joinLines lines) = .ok v ∧ entries? v = some n.frontmatter

theorem readsBack_of_write {n : Note} {text : String} (hw : Yaml.write? n.frontmatter = some text)
    (hparse : Yaml.parse (joinLines (textLines text)) = .ok (.mapping n.frontmatter)) : n.ReadsBack := by
  intro lines hlines
  rcases metadataLines_eq_ok hlines with ⟨hnil, rfl⟩ | ⟨text', -, hw', rfl⟩
  · exact ⟨.null, rfl, by rw [hnil]; rfl⟩
  · cases hw.symm.trans hw'
    exact ⟨_, hparse, rfl⟩

theorem readMapping_metadataLines {n : Note} {lines : List String} (h : n.ReadsBack)
    (hlines : n.metadataLines = .ok lines) (origin : Path) : readMapping lines origin = .ok n.frontmatter :=
  readMapping_eq_ok_iff.2 (h lines hlines)

/-- The note that a written block and a body are read as. -/
theorem ofLines_blockLines {n : Note} {block : List String} (h : n.Tidy) (hback : n.ReadsBack)
    (hblock : n.blockLines = .ok block) (body : List String) (path : Option Path) :
    ofLines (block ++ body) path = .ok
      { id := n.id.or (path.bind Path.fileStem)
        title := headingOf body
        path
        aliases := n.aliases
        tags := n.tags
        metadata := n.metadata
        hasFrontmatter := true
        closingLine := some (block.length - 1)
        body } := by
  obtain ⟨interior, hinterior, rfl⟩ := map_eq_ok hblock
  have hd : Divides (delimiter :: interior ++ delimiter :: body) ⟨delimiter :: interior ++ [delimiter], body, true⟩ :=
    .block (delimiter_not_mem_metadataLines hinterior)
  rw [List.append_cons] at hd
  refine ofLines_eq_ok_iff.2 ⟨_, n.frontmatter, hd, ?_, ?_⟩
  · rw [entriesOf_block]
    exact readMapping_metadataLines hback hinterior _
  · rw [ofSplit_eq, ofMapping_frontmatter h, Divides.closingLine_eq]
    simp

end Note

namespace Engine

variable {σ : Type} {e : Engine} {p : Prompter σ} {reference : String} {at_ : Nat} {d d' : Desk σ} {ins : Insertion}

theorem tidy_of_insert (h : e.insert p reference at_ d = (.ok ins, d')) (htidy : d.target.Tidy) : d'.target.Tidy := by
  obtain ⟨path, lines, -, -, -, hland⟩ := lands_of_insert h
  rcases hland with ⟨-, hland⟩ | ⟨interior, rest, t, block, -, -, hread, hland⟩
  · rw [hland.target]
    exact htidy
  · have habsorbed := htidy.absorb (Note.rereadable_of_ofLines hread).tidy
    rw [hland.target]
    exact ⟨habsorbed.names, habsorbed.tags, habsorbed.keys, habsorbed.free⟩

theorem merged_of_opens {path : Path} (h : e.insert p reference at_ d = (.ok ins, d'))
    (hresolve : Template.resolve d.world.files e.directory reference = .ok path)
    (hopens : (sourceAt d.world.files path).rest.head? = some (.ok delimiter)) : ins.merged = true := by
  obtain ⟨path', lines, hpath, hlines, -, hland⟩ := lands_of_insert h
  obtain rfl : path' = path := Except.ok.inj (hpath.symm.trans hresolve)
  rcases hland with ⟨hfirst, -⟩ | ⟨interior, rest, t, block, -, -, -, hland⟩
  · rw [hlines, List.head?_map] at hopens
    cases lines with
    | nil => cases hopens
    | cons line rest => exact absurd (congrArg some (Except.ok.inj (Option.some.inj hopens))) hfirst
  · rw [hland.range]

/-- When a template with a block was inserted with a note whose names are distinct and whose metadata leaves the fields
of its own alone, the buffer is read as that note, with all lines behind the block as its body. -/
theorem insert_reread_agrees {path : Path} (h : e.insert p reference at_ d = (.ok ins, d'))
    (hresolve : Template.resolve d.world.files e.directory reference = .ok path)
    (hopens : (sourceAt d.world.files path).rest.head? = some (.ok delimiter)) (htidy : d.target.Tidy)
    (hback : d'.target.ReadsBack) :
    ∃ n last, Note.ofBuffer d'.buffer d'.target.path = .ok n ∧
      n.hasFrontmatter = true ∧ n.closingLine = some last ∧ d'.target.closingLine = some last ∧
      n.aliases = d'.target.aliases ∧ n.tags = d'.target.tags ∧ n.metadata = d'.target.metadata ∧
      n.id = d'.target.id.or (d'.target.path.bind Path.fileStem) ∧
      n.body = d'.buffer.lines.drop (last + 1) ∧ d'.buffer.slice ins.start ins.stop <:+: n.body := by
  have hmerged := merged_of_opens h hresolve hopens
  obtain ⟨block, q, hover⟩ : ∃ block q, Entry.Over ⟨d, ins, d'⟩ block q := by
    rcases lands h with halone | hover
    · exact absurd hmerged halone.not_merged
    · exact hover
  have hlines := hover.lines
  rw [List.append_assoc, List.append_assoc] at hlines
  have hread := Note.ofLines_blockLines (tidy_of_insert h htidy) hback hover.written
    (d.body.take q ++ (Entry.inserted ⟨d, ins, d'⟩ ++ d.body.drop q)) d'.target.path
  rw [← hlines, ← Buffer.slice_all d'.buffer] at hread
  obtain ⟨interior, rfl, -⟩ := blockLines_eq_ok hover.written
  refine ⟨_, _, hread, rfl, rfl, hover.closing, rfl, rfl, rfl, rfl, ?_, ?_⟩
  · rw [hlines]
    simp
  · exact ⟨d.body.take q, d.body.drop q, by simp [Entry.inserted]⟩

/-- A point inside the old block, and a note that has its identity from its path only. -/
theorem insert_inside_block_agrees :
    let d := sampleDesk "---\ntags: [z]\nk: v\n---\nnew\n"
      { path := some ⟨"n/a.md"⟩, aliases := ["b"], hasFrontmatter := true, closingLine := some 2 }
      ["---", "aliases: [b]", "---", "body"]
    let d' := (sampleEngine.insert (.silent Unit) "x" 1 d).2
    ∃ n, Note.ofBuffer d'.buffer d'.target.path = .ok n ∧ n.id = some "a" ∧ n.aliases = ["b"] ∧ n.tags = ["z"] ∧
      n.metadata = [(.string "k", .string "v")] ∧ n.closingLine = some 6 ∧ n.body = ["new", "body"] := by
  intro d d'
  have h : sampleEngine.insert (.silent Unit) "x" 1 d = (.ok ⟨true, 7, 8⟩, d') := pair_eq_ok (by decide +kernel)
  have hresolve : Template.resolve d.world.files sampleEngine.directory "x" = .ok ⟨"/t/x.md"⟩ :=
    eq_ok_of_toOption (by decide +kernel)
  have hopens : (sourceAt d.world.files ⟨"/t/x.md"⟩).rest.head? = some (.ok delimiter) := by
    have hfirst : ((sourceAt d.world.files ⟨"/t/x.md"⟩).rest.head?.bind Except.toOption) = some delimiter := by
      decide +kernel
    obtain ⟨item, hitem, hline⟩ := Option.bind_eq_some_iff.1 hfirst
    rw [hitem, eq_ok_of_toOption hline]
  have htidy : d.target.Tidy := ⟨by decide, by decide, .nil, by simp [d, sampleDesk]⟩
  have htarget : d'.target = { d.target with
      tags := ["z"], metadata := [(.string "k", .string "v")], closingLine := some 6 } := by
    decide +kernel
  have hback : d'.target.ReadsBack := by
    have hwritten : Yaml.write? d'.target.frontmatter = some "aliases:\n- b\ntags:\n- z\nk: v\n" := by
      decide +kernel
    have hparse : Yaml.parse (joinLines (textLines "aliases:\n- b\ntags:\n- z\nk: v\n")) =
        .ok (.mapping d'.target.frontmatter) :=
      eq_ok_of_toOption (by decide +kernel)
    exact Note.readsBack_of_write hwritten hparse
  obtain ⟨n, last, hread, -, hclosing, hlast, haliases, htags, hmetadata, hidentity, hbody, -⟩ :=
    insert_reread_agrees h hresolve hopens htidy hback
  rw [htarget] at haliases htags hmetadata hlast hidentity
  obtain rfl : 6 = last := Option.some.inj hlast
  have hlines : d'.buffer.lines.drop 7 = ["new", "body"] := by decide +kernel
  have hstem : d.target.id.or (d.target.path.bind Path.fileStem) = some "a" := by decide +kernel
  exact ⟨n, hread, hidentity.trans hstem, haliases, htags, hmetadata, hclosing, hbody.trans hlines⟩

end Engine
end NoteStencil
