import NoteStencil.Proofs.Cloning
import NoteStencil.Proofs.Octets

/-! What a clone writes. The lines of the template up to the first that cannot be read are expanded in order with one
context, and the destination holds these, each with its line feed, whether or not the clone goes on from there. When
all lines could be read, the new note is what the destination reads as, with the identity of the source. -/

namespace NoteStencil

open FileSystem

/-- A file that was just stored is there under the path that it was stored at. -/
theorem FileSystem.read_storeText {fs fs' : FileSystem} {path : Path} {text : String}
    (h : fs.storeText path text = (.ok (), fs')) : fs'.read path = .ok (encodeUtf8 text) := by
  cases hq : fs.landing? path with
  | none =>
    obtain ⟨fault, -, hstore⟩ := storeText_none text hq
    rw [hstore] at h
    cases h
  | some q =>
    rw [storeText_some text hq] at h
    cases h
    have hthere : (fs.put q (.file (encodeUtf8 text))).node? q = some (.file (encodeUtf8 text)) :=
      node?_put_self (ne_root_of_landing? hq)
    have hlands := landing?_grown hq (grows_put_landing hq (encodeUtf8 text)) hthere
    exact Engine.read_of_place? (place?_of_landing? hlands hthere) hthere

theorem ofFile_of_read {fs : FileSystem} {path : Path} {text : String} (h : fs.read path = .ok (encodeUtf8 text)) :
    Note.ofFile fs path = Note.ofLines (textLines text) (some path) := by
  simp only [Note.ofFile, textAt, readText, h, decodeUtf8_encodeUtf8]

/-! ### Lines that can be read -/

theorem octetLines_error {octets : List UInt8} {fault : Fault} (h : .error fault ∈ octetLines octets) :
    fault = .notUtf8 := by
  obtain ⟨line, -, hline⟩ := List.mem_map.1 h
  split at hline
  · cases hline
  · exact (Except.error.inj hline).symm

namespace Engine

theorem readable_append_error (lines : List String) (fault : Fault) (more : LineSource) :
    readable (lines.map .ok ++ .error fault :: more) = (lines, some fault) := by
  induction lines with
  | nil => rfl
  | cons line rest ih => simp [readable, ih]

theorem readable_map_ok (lines : List String) : readable (lines.map .ok) = (lines, none) := by
  induction lines with
  | nil => rfl
  | cons line rest ih => simp [readable, ih]

/-- The readable lines are the first ones; what follows them is nothing or starts with the refusal. -/
theorem readable_eq_iff {source : LineSource} {lines : List String} {fault : Option Fault} :
    readable source = (lines, fault) ↔ ∃ rest, source = lines.map .ok ++ rest ∧
      ((rest = [] ∧ fault = none) ∨ ∃ refusal more, rest = .error refusal :: more ∧ fault = some refusal) := by
  constructor
  · intro h
    induction source generalizing lines with
    | nil =>
      cases h
      exact ⟨[], rfl, .inl ⟨rfl, rfl⟩⟩
    | cons item more ih =>
      cases item with
      | error refusal =>
        cases h
        exact ⟨_, rfl, .inr ⟨refusal, more, rfl, rfl⟩⟩
      | ok line =>
        obtain ⟨rfl, hfault⟩ := Prod.mk.inj h
        obtain ⟨rest, heq, hrest⟩ := ih (Prod.ext rfl hfault)
        exact ⟨rest, congrArg (.ok line :: ·) heq, hrest⟩
  · rintro ⟨rest, rfl, ⟨rfl, rfl⟩ | ⟨refusal, more, rfl, rfl⟩⟩
    · rw [List.append_nil, readable_map_ok]
    · exact readable_append_error lines refusal more

theorem readable_octetLines (octets : List UInt8) :
    ∃ rest, octetLines octets = (readable (octetLines octets)).1.map .ok ++ rest ∧
      ((rest = [] ∧ (readable (octetLines octets)).2 = none) ∨
        ∃ more, rest = .error .notUtf8 :: more ∧ (readable (octetLines octets)).2 = some .notUtf8) := by
  obtain ⟨rest, heq, hrest⟩ := readable_eq_iff.1 (Eq.refl (readable (octetLines octets)))
  refine ⟨rest, heq, ?_⟩
  rcases hrest with hrest | ⟨refusal, more, hmore, hfault⟩
  · exact .inl hrest
  · have hmem : .error refusal ∈ octetLines octets := by rw [heq, hmore]; simp
    rw [octetLines_error hmem] at hmore hfault
    exact .inr ⟨more, hmore, hfault⟩

variable {σ : Type} {e : Engine} {p : Prompter σ} {reference : String} {template destination : Path} {source : Note}
  {w w' : World σ}

/-! ### Filling -/

/-- How filling ends, by what stopped the reading of the template. -/
def filling (template : Path) : Option Fault → Except Failure Unit
  | none => .ok ()
  | some fault => .error (.unreadable template fault)

/-- The destination holds the expanded lines, each with its line feed, and the prompt was asked for these alone. -/
structure Filled (e : Engine) (p : Prompter σ) (lines : List String) (destination : Path) (source : Note)
    (w w' : World σ) : Prop where
  holds : w'.files.read destination =
    .ok (encodeUtf8 (closeLines (expandLines p lines (e.contextFor source) w.prompt).1))
  prompt : w'.prompt = (expandLines p lines (e.contextFor source) w.prompt).2.2

theorem filled_of_fillFrom {r : Except Failure Unit} {q : Place} {octets : List UInt8}
    (h : e.fillFrom p template destination source w = (r, w')) (hq : w.files.landing? destination = some q)
    (hread : w.files.read template = .ok octets) :
    Filled e p (readable (octetLines octets)).1 destination source w w' ∧
      r = filling template (readable (octetLines octets)).2 := by
  have hstore : w.files.storeText destination
      (closeLines (expandLines p (readable (octetLines octets)).1 (e.contextFor source) w.prompt).1) = (.ok (), _) :=
    storeText_some _ hq
  have hholds := read_storeText hstore
  simp only [fillFrom, sourceAt, hread, World.expanded, hstore] at h
  cases hfault : (readable (octetLines octets)).2 with
  | none =>
    rw [hfault] at h
    cases h
    exact ⟨⟨hholds, rfl⟩, rfl⟩
  | some fault =>
    rw [hfault] at h
    cases h
    exact ⟨⟨hholds, rfl⟩, rfl⟩

/-- The directories are made and the destination is emptied first, but neither changes the template. -/
theorem filled_of_copyTo {r : Except Failure Unit} {q t : Place} {octets : List UInt8}
    (h : e.copyTo p template destination source w = (r, w')) (hq : w.files.destination? destination = some q)
    (hplace : w.files.place? template = some t) (ht : w.files.node? t = some (.file octets)) (hne : q ≠ t) :
    Filled e p (readable (octetLines octets)).1 destination source w w' ∧
      r = filling template (readable (octetLines octets)).2 := by
  obtain ⟨made, hmade, hlands⟩ := destination?_eq_some_iff.1 hq
  have hopened : Opened destination w.files made := opened_of_ensureParent hmade
  rcases hopened.storeText "" with ⟨q', hq', hstore, hemptied⟩ | ⟨hnone, -⟩
  · obtain rfl : q = q' := Option.some.inj (hq.symm.trans hq')
    have hkept := hemptied.toOnlyAt.kept ht (by simpa [hq] using hne)
    have hread := read_of_place? (hemptied.grows.place? hplace) hkept
    simp only [copyTo, hmade, hstore] at h
    obtain ⟨hfilled, hr⟩ := filled_of_fillFrom h (hemptied.lands.trans hq) hread
    exact ⟨⟨hfilled.holds, hfilled.prompt⟩, hr⟩
  · rw [hnone] at hq
    cases hq

/-- Where the destination is another file, it is not refused as the template. -/
theorem sameFile_eq_false {fs : FileSystem} {q : Place} (hq : fs.destination? destination = some q)
    (hother : fs.place? template ≠ some q) : fs.sameFile template destination = false := by
  unfold FileSystem.sameFile
  cases ht : fs.place? template with
  | none => rfl
  | some t =>
    cases hd : fs.place? destination with
    | none => rfl
    | some d =>
      have hsame : q = d := destination?_of_place? hd hq
      apply beq_eq_false_iff_ne.2
      intro he
      exact hother (by rw [ht, he, hsame])

/-! ### The new note -/

/-- What a new note takes over from its source, and what it keeps. -/
structure Inherits (n source n' : Note) : Prop where
  id : n'.id = source.id.or n.id
  title : n'.title = n.title.or source.title
  aliases : n'.aliases = n.aliases ++ (source.aliases.filter (· ∉ n.aliases)).eraseDups
  tags : ∀ tag, tag ∈ n'.tags ↔ tag ∈ n.tags ∨ tag ∈ source.tags
  rest : n' = { n with id := n'.id, title := n'.title, aliases := n'.aliases, tags := n'.tags }

theorem inherit_eq (n source : Note) :
    inherit n source = { n with
      id := source.id.or n.id
      title := n.title.or source.title
      aliases := Note.joinNames n.aliases source.aliases
      tags := Note.joinTags n.tags source.tags } := by
  rw [inherit, Note.addAliases_eq, Note.addTags_eq]

theorem inherits_inherit (n source : Note) : Inherits n source (inherit n source) := by
  rw [inherit_eq]
  exact ⟨rfl, rfl, Note.joinNames_eq _ _, fun tag => Note.mem_joinTags, rfl⟩

/-- How a clone ends that has filled its destination: refused by what it could not read, or with what the destination
reads as. -/
def ending (template destination : Path) (source : Note) (out : List String) : Option Fault → Except Failure Note
  | none => (Note.ofLines (textLines (closeLines out)) (some destination)).map (inherit · source)
  | some fault => .error (.unreadable template fault)

theorem filled_of_clone {r : Except Failure Note} {q t : Place} {octets : List UInt8}
    (h : e.clone p reference destination source w = (r, w'))
    (hresolve : Template.resolve w.files e.directory reference = .ok template)
    (hq : w.files.destination? destination = some q) (hplace : w.files.place? template = some t)
    (ht : w.files.node? t = some (.file octets)) (hne : q ≠ t) :
    Filled e p (readable (octetLines octets)).1 destination source w w' ∧
      r = ending template destination source
        (expandLines p (readable (octetLines octets)).1 (e.contextFor source) w.prompt).1
        (readable (octetLines octets)).2 := by
  cases cloned h with
  | unresolved resolved =>
    rw [resolved] at hresolve
    cases hresolve
  | refused resolved same =>
    obtain rfl := Except.ok.inj (resolved.symm.trans hresolve)
    rw [sameFile_eq_false hq (by simpa [hplace, eq_comm] using hne)] at same
    cases same
  | stopped resolved _ copied =>
    obtain rfl := Except.ok.inj (resolved.symm.trans hresolve)
    obtain ⟨hfilled, hr⟩ := filled_of_copyTo copied hq hplace ht hne
    refine ⟨⟨hfilled.holds, hfilled.prompt⟩, ?_⟩
    cases hfault : (readable (octetLines octets)).2 with
    | none =>
      rw [hfault] at hr
      cases hr
    | some fault =>
      rw [hfault] at hr
      cases hr
      rfl
  | copied resolved _ copied =>
    obtain rfl := Except.ok.inj (resolved.symm.trans hresolve)
    obtain ⟨hfilled, hr⟩ := filled_of_copyTo copied hq hplace ht hne
    refine ⟨⟨hfilled.holds, hfilled.prompt⟩, ?_⟩
    cases hfault : (readable (octetLines octets)).2 with
    | none =>
      rw [ofFile_of_read hfilled.holds]
      rfl
    | some fault =>
      rw [hfault] at hr
      cases hr

/-- The template that is meant, and its lines, all of which can be read. -/
structure Reads (e : Engine) (reference : String) (fs : FileSystem) (template : Path) (lines : List String) : Prop where
  resolved : Template.resolve fs e.directory reference = .ok template
  source : (sourceAt fs template).rest = lines.map .ok

theorem reads_iff {fs : FileSystem} {lines : List String} :
    e.Reads reference fs template lines ↔
      Template.resolve fs e.directory reference = .ok template ∧ readable (sourceAt fs template).rest = (lines, none) := by
  constructor
  · intro h
    rw [h.source]
    exact ⟨h.resolved, readable_map_ok lines⟩
  · rintro ⟨hresolve, hreadable⟩
    obtain ⟨rest, hsource, hrest⟩ := readable_eq_iff.1 hreadable
    rcases hrest with ⟨rfl, -⟩ | ⟨refusal, more, -, hnone⟩
    · rw [List.append_nil] at hsource
      exact ⟨hresolve, hsource⟩
    · cases hnone

theorem Reads.unique {fs : FileSystem} {template' : Path} {lines lines' : List String}
    (h : e.Reads reference fs template lines) (h' : e.Reads reference fs template' lines') :
    template = template' ∧ lines = lines' := by
  obtain ⟨hresolve, hreadable⟩ := reads_iff.1 h
  obtain ⟨hresolve', hreadable'⟩ := reads_iff.1 h'
  obtain rfl : template = template' := Except.ok.inj (hresolve.symm.trans hresolve')
  exact ⟨rfl, congrArg Prod.fst (hreadable.symm.trans hreadable')⟩

/-- A clone that gives a note has read and expanded the whole template. -/
theorem reads_of_clone {note : Note} (h : e.clone p reference destination source w = (.ok note, w'))
    (hother : ∀ template, Template.resolve w.files e.directory reference = .ok template →
      w.files.destination? destination ≠ w.files.place? template) :
    ∃ template lines n, Reads e reference w.files template lines ∧ Filled e p lines destination source w w' ∧
      Note.ofLines (textLines (closeLines (expandLines p lines (e.contextFor source) w.prompt).1)) (some destination) =
        .ok n ∧
      note = inherit n source := by
  obtain ⟨-, q, octets', hq, -⟩ := (cloned h).opened rfl
  obtain ⟨template, hresolve⟩ := (cloned h).resolved rfl
  obtain ⟨t, octets, hplace, ht⟩ := template_file hresolve
  have hne : q ≠ t := fun he => hother template hresolve (by rw [hq, hplace, he])
  obtain ⟨hfilled, hr⟩ := filled_of_clone h hresolve hq hplace ht hne
  obtain ⟨rest, heq, hrest⟩ := readable_octetLines octets
  rcases hrest with ⟨rfl, hnone⟩ | ⟨more, -, hfault⟩
  · rw [hnone, ending] at hr
    obtain ⟨n, hn, hnote⟩ := map_eq_ok hr.symm
    have hsource : (sourceAt w.files template).rest = octetLines octets := by
      rw [sourceAt, read_of_place? hplace ht]
    rw [List.append_nil] at heq
    exact ⟨template, _, n, ⟨hresolve, hsource.trans heq⟩, hfilled, hn, hnote.symm⟩
  · rw [hfault] at hr
    cases hr

/-- A clone onto another file than the template writes the expansion of the lines that it could read, each with its line
feed, asks for nothing else, and gives the note that this reads as with the identity of the source. -/
theorem clone_writes_expansion {r : Except Failure Note} {q : Place}
    (h : e.clone p reference destination source w = (r, w'))
    (hresolve : Template.resolve w.files e.directory reference = .ok template)
    (hdestination : w.files.destination? destination = some q) (hother : w.files.place? template ≠ some q) :
    ∃ octets lines rest,
      w.files.read template = .ok octets ∧
      octetLines octets = lines.map .ok ++ rest ∧ (rest = [] ∨ ∃ more, rest = .error .notUtf8 :: more) ∧
      let out := expandLines p lines (e.contextFor source) w.prompt
      w'.files.read destination = .ok (encodeUtf8 (closeLines out.1)) ∧
      w'.prompt = out.2.2 ∧
      (rest ≠ [] → r = .error (.unreadable template .notUtf8)) ∧
      (rest = [] →
        (∀ failure, Note.ofLines (textLines (closeLines out.1)) (some destination) = .error failure →
          r = .error failure) ∧
        ∀ n, Note.ofLines (textLines (closeLines out.1)) (some destination) = .ok n →
          ∃ n', r = .ok n' ∧ Inherits n source n') := by
  obtain ⟨t, octets, hplace, ht⟩ := template_file hresolve
  obtain ⟨rest, heq, hrest⟩ := readable_octetLines octets
  have hne : q ≠ t := fun he => hother (he ▸ hplace)
  obtain ⟨hfilled, hr⟩ := filled_of_clone h hresolve hdestination hplace ht hne
  refine ⟨octets, _, rest, read_of_place? hplace ht, heq, ?_, hfilled.holds, hfilled.prompt, ?_, ?_⟩
  · exact hrest.imp And.left fun ⟨more, hmore, _⟩ => ⟨more, hmore⟩
  · intro hsome
    obtain ⟨more, -, hfault⟩ := hrest.resolve_left fun hnil => hsome hnil.1
    rw [hr, hfault]
    rfl
  · intro hnil
    have hnone : (readable (octetLines octets)).2 = none := by
      rcases hrest with ⟨-, hnone⟩ | ⟨more, hmore, -⟩
      · exact hnone
      · rw [hnil] at hmore
        cases hmore
    rw [hr, hnone, ending]
    constructor
    · intro failure hfailure
      rw [hfailure]
      rfl
    · intro n hn
      rw [hn]
      exact ⟨_, rfl, inherits_inherit n source⟩

/-- A line that is no text stops a clone: the line before it is written, below a directory that had to be made, and the
line behind it is not asked about. -/
theorem clone_stops_at_refusal :
    let octets := encodeUtf8 "\x7b\x7btitle\x7d\x7d \x7b\x7ba\x7d\x7d\n" ++ [0xFF, 0x0A] ++ encodeUtf8 "\x7b\x7bb\x7d\x7d\n"
    let w : World (List String) := ⟨{ entries := [(["t"], .directory), (["t", "x.md"], .file octets)] }, [], []⟩
    let p : Prompter (List String) := ⟨fun text log => (some "1", log ++ [text])⟩
    ∃ w', sampleEngine.clone p "x" ⟨"/n/new.md"⟩ { title := some "T" } w =
        (.error (.unreadable ⟨"/t/x.md"⟩ .notUtf8), w') ∧
      w'.files.read ⟨"/n/new.md"⟩ = .ok (encodeUtf8 "T 1\n") ∧ w'.prompt = [question "a"] := by
  intro octets w p
  have hresolve : Template.resolve w.files sampleEngine.directory "x" = .ok ⟨"/t/x.md"⟩ :=
    eq_ok_of_toOption (by decide +kernel)
  have hdestination : w.files.destination? ⟨"/n/new.md"⟩ = some ["n", "new.md"] := by decide +kernel
  have hother : w.files.place? ⟨"/t/x.md"⟩ ≠ some ["n", "new.md"] := by decide +kernel
  cases hr : sampleEngine.clone p "x" ⟨"/n/new.md"⟩ { title := some "T" } w with
  | mk r w' =>
    obtain ⟨octets', lines, rest, hread, heq, hrest, hholds, hprompt, hrefused, -⟩ :=
      clone_writes_expansion hr hresolve hdestination hother
    have hlines : lines = ["\x7b\x7btitle\x7d\x7d \x7b\x7ba\x7d\x7d"] ∧ rest ≠ [] := by
      have hknown : (w.files.read ⟨"/t/x.md"⟩).toOption.map (fun octets => readable (octetLines octets)) =
          some (["\x7b\x7btitle\x7d\x7d \x7b\x7ba\x7d\x7d"], some .notUtf8) := by decide +kernel
      rw [hread] at hknown
      have hparts : readable (octetLines octets') = _ := Option.some.inj hknown
      rcases hrest with rfl | ⟨more, rfl⟩
      · rw [readable_eq_iff.2 ⟨[], heq, .inl ⟨rfl, rfl⟩⟩] at hparts
        cases hparts
      · rw [readable_eq_iff.2 ⟨_, heq, .inr ⟨_, more, rfl, rfl⟩⟩] at hparts
        exact ⟨(Prod.mk.inj hparts).1, by simp⟩
    have hout : (expandLines p lines (sampleEngine.contextFor { title := some "T" }) w.prompt).1 = ["T 1"] ∧
        (expandLines p lines (sampleEngine.contextFor { title := some "T" }) w.prompt).2.2 = [question "a"] := by
      rw [hlines.1]
      decide +kernel
    rw [hout.1] at hholds
    rw [hout.2] at hprompt
    exact ⟨w', Prod.ext (hrefused hlines.2) rfl, hholds, hprompt⟩

end Engine
end NoteStencil
