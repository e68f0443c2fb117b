import NoteStencil.Proofs.Agreement
import NoteStencil.Proofs.Commands
import NoteStencil.Proofs.Filling

/-! What a new note is read as. Its file holds all that the template gave and all that the note was told, and reads as
just that: no line of a block ends in a carriage return, and a body line that does not is read as it was written. -/

namespace NoteStencil

open FileSystem

/-! ### Saved notes -/

namespace Note

variable {n : Note} {fs fs' : FileSystem} {path : Path}

theorem body_subset_of_ofLines {lines : List String} {path : Option Path} (h : ofLines lines path = .ok n) :
    n.body ⊆ lines := by
  obtain ⟨s, m, hd, -, rfl⟩ := ofLines_eq_ok_iff.1 h
  rw [ofSplit_eq, hd.lines_eq]
  exact List.subset_append_right s.block s.body

theorem save_eq_ok (h : n.save fs path = (.ok (), fs')) :
    ∃ lines, n.toLines = .ok lines ∧ fs'.read path = .ok (encodeUtf8 (fileText lines)) := by
  unfold save at h
  split at h
  · cases h
  · split at h
    · cases h
    · next lines hlines => exact ⟨lines, hlines, read_storeText h⟩

/-- The note that the file of a saved note with a block is read as. -/
theorem ofFile_of_save (h : n.save fs path = (.ok (), fs')) (htidy : n.Tidy) (hback : n.ReadsBack)
    (hblock : n.hasBlock = true) (hbody : ∀ line ∈ n.body, Whole line) :
    ∃ last, ofFile fs' path = .ok
      { id := n.id.or path.fileStem
        title := headingOf n.body
        path := some path
        aliases := n.aliases
        tags := n.tags
        metadata := n.metadata
        hasFrontmatter := true
        closingLine := some last
        body := n.body } := by
  obtain ⟨lines, hlines, hread⟩ := save_eq_ok h
  rw [toLines, if_pos hblock] at hlines
  obtain ⟨block, hwritten, rfl⟩ := map_eq_ok hlines
  have hwhole : ∀ line ∈ block ++ n.body, Whole line := List.forall_mem_append.2 ⟨whole_blockLines hwritten, hbody⟩
  have hne : block ++ n.body ≠ [] := by
    obtain ⟨interior, -, rfl⟩ := map_eq_ok hwritten
    simp
  refine ⟨block.length - 1, ?_⟩
  rw [ofFile_of_read hread, fileText, joinLines_closed hne, textLines_whole hwhole,
    ofLines_blockLines htidy hback hwritten n.body (some path)]
  rfl

end Note

namespace FileSystem

/-- A file can only be made at a path that names one. -/
theorem fileStem_of_destination? {fs : FileSystem} {path : Path} {q : Place} (h : fs.destination? path = some q) :
    ∃ stem, path.fileStem = some stem := by
  obtain ⟨made, -, hlands⟩ := destination?_eq_some_iff.1 h
  obtain ⟨target, htarget⟩ : ∃ target, made.writeTarget path = .ok target := by
    rcases landing?_cases hlands with ⟨htarget, -⟩ | ⟨directory, name, htarget, -⟩
    · exact ⟨_, htarget⟩
    · exact ⟨_, htarget⟩
  obtain ⟨-, hends, -⟩ := writeTarget_eq_ok_iff.1 htarget
  obtain ⟨name, hname⟩ := hends.fileName
  exact ⟨_, by rw [Path.fileStem, hname]; rfl⟩

end FileSystem

namespace Command

variable {p : Workplace} {template : String} {note destination : Path} {identity : Identity} {force : Bool}
  {w w' : Terminal}

/-! ### New notes -/

theorem sourceNote_eq (identity : Identity) (destination : Path) :
    sourceNote identity destination =
      { id := identity.id.or destination.fileStem
        title := identity.title
        path := some destination
        aliases := Note.joinNames [] identity.aliases
        tags := Note.joinTags [] identity.tags } := by
  rw [sourceNote, Note.addAliases_eq, Note.addTags_eq]

/-- The heading that goes above a body. -/
def headingAbove (title : Option String) (body : List String) : List String :=
  if body.any Note.isHeading then [] else (title.map (Note.headingLead ++ ·)).toList

theorem withHeading_eq (title : Option String) (n : Note) :
    withHeading title n = { n with body := headingAbove title n.body ++ n.body } := by
  unfold withHeading headingAbove
  by_cases hbody : n.body.any Note.isHeading = true
  · rw [if_pos hbody]
    cases title with
    | none => rfl
    | some title => simp only [if_pos hbody, List.nil_append]
  · rw [if_neg hbody]
    cases title with
    | none => rfl
    | some title => simp only [if_neg hbody, Option.map_some, Option.toList_some, List.singleton_append]

theorem whole_headingAbove {title : Option String} (h : ∀ text, title = some text → Whole text) (body : List String) :
    ∀ line ∈ headingAbove title body, Whole line := by
  intro line hline
  unfold headingAbove at hline
  split at hline
  · cases hline
  · obtain ⟨text, htext, rfl⟩ := Option.map_eq_some_iff.1 (Option.mem_toList.1 hline)
    have hwhole := h text htext
    have hlead : '\n' ∉ Note.headingLead.toList := by decide
    refine ⟨?_, ?_⟩
    · rw [Feedless, String.toList_append, List.mem_append]
      exact not_or.2 ⟨hlead, hwhole.feedless⟩
    · rw [String.toList_append, List.getLast?_append]
      cases hlast : text.toList.getLast? with
      | none => decide
      | some c => simpa [hlast] using hwhole.last

/-- What a new note has of the note that its template expands to, and of what it was told. -/
structure Persists (n : Note) (identity : Identity) (destination : Path) (n' : Note) : Prop where
  id : n'.id = identity.id.or destination.fileStem
  aliases : n'.aliases = n.aliases ++ (identity.aliases.filter (· ∉ n.aliases)).eraseDups
  distinct : n'.aliases.Nodup
  tags : ∀ tag, tag ∈ n'.tags ↔ tag ∈ n.tags ∨ tag ∈ identity.tags
  metadata : n'.metadata = n.metadata
  body : n'.body = headingAbove identity.title n.body ++ n.body
  title : n'.title = Note.headingOf n'.body

theorem runNew_eq_ok (h : runNew p template note identity force w = (.ok (), w')) :
    ∃ n w₁, p.engine.clone Console.prompter template (p.notePath note) (sourceNote identity (p.notePath note))
        (w.warn p.warnings) = (.ok n, w₁) ∧
      (withHeading identity.title n).save w₁.files (p.notePath note) = (.ok (), w'.files) := by
  unfold runNew at h
  simp only at h
  split at h
  · cases h
  · split at h
    · cases h
    · next n w₁ hclone =>
      split at h
      · cases h
      · next files hsave =>
        cases h
        exact ⟨n, w₁, hclone, hsave⟩

/-- Names that a source gave already in their order bring what they bring by themselves. -/
theorem inherit_sourceNote (n : Note) (identity : Identity) (destination : Path) :
    Engine.inherit n (sourceNote identity destination) = { n with
      id := (identity.id.or destination.fileStem).or n.id
      title := n.title.or identity.title
      aliases := Note.joinNames n.aliases identity.aliases
      tags := Note.joinTags n.tags (Note.joinTags [] identity.tags) } := by
  have hnames : Note.joinNames n.aliases (Note.joinNames [] identity.aliases) =
      Note.joinNames n.aliases identity.aliases := Note.joinNames_joinNames n.aliases [] identity.aliases
  rw [Engine.inherit_eq, sourceNote_eq, hnames]

/-- What is saved for a new note reads as that note. -/
theorem persists_of_save {n : Note} {fs fs' : FileSystem} {stem : String}
    (hsave : (withHeading identity.title (Engine.inherit n (sourceNote identity destination))).save fs destination =
      (.ok (), fs'))
    (hstem : destination.fileStem = some stem) (htidy : n.Tidy)
    (hback : (Engine.inherit n (sourceNote identity destination)).ReadsBack)
    (htitle : ∀ title, identity.title = some title → Whole title) (hbody : ∀ line ∈ n.body, Whole line) :
    ∃ n', Note.ofFile fs' destination = .ok n' ∧ Persists n identity destination n' := by
  obtain ⟨id, hid⟩ : ∃ id, identity.id.or destination.fileStem = some id := by
    cases hid : identity.id with
    | none => exact ⟨stem, hstem⟩
    | some id => exact ⟨id, rfl⟩
  rw [withHeading_eq] at hsave
  rw [inherit_sourceNote, hid] at hsave hback
  have hnames := Note.joinNames_nodup identity.aliases htidy.names
  have htags := Note.joinTags_ascending (Note.joinTags [] identity.tags) htidy.tags
  have hwhole : ∀ line ∈ headingAbove identity.title n.body ++ n.body, Whole line :=
    List.forall_mem_append.2 ⟨whole_headingAbove htitle n.body, hbody⟩
  have hblock : ∀ m : Note, m.id = some id → m.hasBlock = true := by
    intro m hm
    simp [Note.hasBlock, Note.frontmatter, hm]
  obtain ⟨last, hread⟩ := Note.ofFile_of_save hsave ⟨hnames, htags, htidy.keys, htidy.free⟩ hback (hblock _ rfl) hwhole
  refine ⟨_, hread, ?_, Note.joinNames_eq _ _, hnames, ?_, rfl, rfl, rfl⟩
  · rw [hid]
    rfl
  · intro tag
    simp [Note.mem_joinTags]

/-- A run that makes a new note leaves a file that reads as what the template expands to, with the identity, the names
and the tags that the run was given, and with its title as a heading above a body that has none. -/
theorem run_persists_note {i : Invocation} {e : Environment} {now : Instant} {workdir : Path}
    (h : i.run e now workdir w = (.ok (), w')) (hload : Workplace.load i e now workdir w.files = .ok p)
    (hcommand : i.command = .new template note identity force)
    (hother : ∀ path, Template.resolve w.files p.templatesDir template = .ok path →
      w.files.destination? (p.notePath note) ≠ w.files.place? path)
    (htitle : ∀ title, identity.title = some title → Whole title) :
    ∃ path lines n, p.engine.Reads template w.files path lines ∧
      Note.ofLines (textLines (closeLines (expandLines Console.prompter lines
        (p.engine.contextFor (sourceNote identity (p.notePath note))) w.prompt).1)) (some (p.notePath note)) = .ok n ∧
      ((∀ line ∈ n.body, line.toList.getLast? ≠ some '\r') →
        (Engine.inherit n (sourceNote identity (p.notePath note))).ReadsBack →
        ∃ n', Note.ofFile w'.files (p.notePath note) = .ok n' ∧ Persists n identity (p.notePath note) n') := by
  unfold Invocation.run at h
  simp only [hload, run, hcommand] at h
  obtain ⟨_, w₁, hclone, hsave⟩ := runNew_eq_ok h
  obtain ⟨-, q, octets, hq, -⟩ := (Engine.cloned hclone).opened rfl
  obtain ⟨stem, hstem⟩ := fileStem_of_destination? hq
  obtain ⟨path, lines, n, hreads, -, hn, rfl⟩ := Engine.reads_of_clone hclone hother
  refine ⟨path, lines, n, hreads, hn, fun hlast hback => ?_⟩
  have hbody : ∀ line ∈ n.body, Whole line := fun line hline =>
    ⟨feedless_textLines _ line (Note.body_subset_of_ofLines hn hline), hlast line hline⟩
  exact persists_of_save hsave hstem (Note.rereadable_of_ofLines hn).tidy hback htitle hbody

/-- A template with a block that gives one of the names already, for a note in a directory that has to be made. -/
theorem run_persists_told :
    let w : Terminal := ⟨{ entries := [(["t"], .directory), (["t", "x.md"], .file
      (encodeUtf8 "---\naliases: [b]\nk: v\n---\nof \x7b\x7btitle\x7d\x7d\n")),
      (["c"], .file (encodeUtf8 "templates_dir = \"t\"\n"))] }, {}, []⟩
    let told : Identity := { title := some "T", aliases := ["a", "b"], tags := ["z"] }
    let i : Invocation := { command := .new "x" ⟨"n/new.md"⟩ told false, config := some ⟨"/c"⟩ }
    let w' := (i.run {} ⟨0, 0⟩ ⟨"/"⟩ w).2
    ∃ n', Note.ofFile w'.files ⟨"/n/new.md"⟩ = .ok n' ∧ n'.id = some "new" ∧ n'.aliases = ["b", "a"] ∧
      "z" ∈ n'.tags ∧ n'.metadata = [(.string "k", .string "v")] ∧ n'.body = ["# T", "of T"] ∧ n'.title = some "T" := by
  intro w told i w'
  let p : Workplace :=
    { config := { templatesDir := some "t", vault := some ⟨"/"⟩ }, root := ⟨"/"⟩, environment := {}, now := ⟨0, 0⟩ }
  have h : i.run {} ⟨0, 0⟩ ⟨"/"⟩ w = (.ok (), w') := pair_eq_ok (by decide +kernel)
  have hload : Workplace.load i {} ⟨0, 0⟩ ⟨"/"⟩ w.files = .ok p := by
    have hconfig : Config.loadOptional w.files {} i.config = .ok { templatesDir := some "t" } :=
      eq_ok_of_toOption (by decide +kernel)
    rw [Workplace.load, hconfig]
    rfl
  have hresolve : Template.resolve w.files p.templatesDir "x" = .ok ⟨"/t/x.md"⟩ := eq_ok_of_toOption (by decide +kernel)
  have hother : ∀ path, Template.resolve w.files p.templatesDir "x" = .ok path →
      w.files.destination? (p.notePath ⟨"n/new.md"⟩) ≠ w.files.place? path := by
    intro path hpath
    obtain rfl := Except.ok.inj (hresolve.symm.trans hpath)
    decide +kernel
  have htitle : ∀ title, told.title = some title → Whole title := by
    rintro title ⟨⟩
    exact ⟨by unfold Feedless; decide, by decide⟩
  obtain ⟨path, lines, n, hreads, hn, hrereads⟩ := run_persists_note h hload rfl hother htitle
  have hknown : p.engine.Reads "x" w.files ⟨"/t/x.md"⟩
      ["---", "aliases: [b]", "k: v", "---", "of \x7b\x7btitle\x7d\x7d"] :=
    Engine.reads_iff.2 ⟨hresolve, by decide +kernel⟩
  obtain ⟨rfl, rfl⟩ := hknown.unique hreads
  let given : Note :=
    { id := some "new"
      path := some ⟨"/n/new.md"⟩
      aliases := ["b"]
      metadata := [(.string "k", .string "v")]
      hasFrontmatter := true
      closingLine := some 3
      body := ["of T"] }
  have hgiven : n = given := Except.ok.inj (hn.symm.trans (eq_ok_of_toOption (by decide +kernel)))
  rw [hgiven] at hrereads
  have hback : (Engine.inherit given (sourceNote told (p.notePath ⟨"n/new.md"⟩))).ReadsBack := by
    have hwritten : Yaml.write? (Engine.inherit given (sourceNote told (p.notePath ⟨"n/new.md"⟩))).frontmatter =
        some "id: new\naliases:\n- b\n- a\ntags:\n- z\nk: v\n" := by
      decide +kernel
    exact Note.readsBack_of_write hwritten (eq_ok_of_toOption (by decide +kernel))
  have hpath : p.notePath ⟨"n/new.md"⟩ = ⟨"/n/new.md"⟩ := by decide +kernel
  obtain ⟨n', hread, hpersists⟩ := hrereads (by decide) hback
  rw [hpath] at hread
  refine ⟨n', hread, hpersists.id.trans ?_, hpersists.aliases.trans ?_, ?_, hpersists.metadata, ?_, ?_⟩
  · decide +kernel
  · decide +kernel
  · exact (hpersists.tags "z").2 (.inr (by decide))
  · rw [hpersists.body]
    decide +kernel
  · rw [hpersists.title, hpersists.body]
    decide +kernel

end Command
end NoteStencil
