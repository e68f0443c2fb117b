import NoteStencil.Command.Run
import NoteStencil.Proofs.Cloning
import NoteStencil.Proofs.Described
import NoteStencil.Proofs.LineFeeds

/-! What the commands do to the notes that are there. Whether a note exists is asked before the directories above it are
made, and it is written after: a path that leads nowhere by then, and to a note after, is all that can cost that note
its content. -/

namespace NoteStencil

open FileSystem

theorem Note.whole_blockLines {n : Note} {block : List String} (h : n.blockLines = .ok block) :
    ∀ line ∈ block, Whole line := by
  have hdelimiter : Whole delimiter := ⟨by unfold Feedless; decide, by decide⟩
  obtain ⟨interior, hinterior, rfl⟩ := map_eq_ok h
  rw [List.forall_mem_append, List.forall_mem_cons, List.forall_mem_singleton]
  refine ⟨⟨hdelimiter, ?_⟩, hdelimiter⟩
  rcases metadataLines_eq_ok hinterior with ⟨-, rfl⟩ | ⟨text, -, hw, rfl⟩
  · nofun
  · exact whole_textLines (Yaml.return_not_mem_write hw)

namespace Engine

variable {σ : Type} {e : Engine} {p : Prompter σ} {reference : String} {at_ : Nat} {d d' : Desk σ} {ins : Insertion}

theorem insertSplit_files (e : Engine) (p : Prompter σ) (path : Path) (template : Split) (point : Nat) (d : Desk σ) :
    (e.insertSplit p path template point d).2.world.files = d.world.files := by
  unfold insertSplit
  simp only
  split
  · split <;> rfl
  · rfl

theorem insert_files (e : Engine) (p : Prompter σ) (reference : String) (at_ : Nat) (d : Desk σ) :
    (e.insert p reference at_ d).2.world.files = d.world.files := by
  rw [insert_eq]
  split
  · rfl
  · exact insertSplit_files e p _ _ _ _

theorem feedless_bodyLines (lines : List String) : ∀ line ∈ bodyLines lines, Feedless line := by
  intro line hline
  obtain ⟨text, -, hline⟩ := List.mem_flatMap.1 hline
  exact feedless_splitLines text line hline

theorem feedless_of_insert (h : e.insert p reference at_ d = (.ok ins, d'))
    (hd : ∀ line ∈ d.buffer.lines, Feedless line) : ∀ line ∈ d'.buffer.lines, Feedless line := by
  obtain ⟨path, lines, -, -, -, hland⟩ := lands_of_insert h
  rcases hland with ⟨-, hland⟩ | ⟨interior, rest, t, block, -, -, -, hland⟩
  · rw [hland.lines, List.forall_mem_append, List.forall_mem_append]
    exact ⟨⟨fun line hline => hd line (List.mem_of_mem_take hline), feedless_bodyLines _⟩,
      fun line hline => hd line (List.mem_of_mem_drop hline)⟩
  · have hbehind : ∀ line ∈ d.buffer.lines.drop (blockLength d.target d.buffer), Feedless line :=
      fun line hline => hd line (List.mem_of_mem_drop hline)
    rw [hland.lines, List.forall_mem_append, List.forall_mem_append, List.forall_mem_append]
    exact ⟨⟨⟨fun line hline => (Note.whole_blockLines hland.written line hline).feedless,
      fun line hline => hbehind line (List.mem_of_mem_take hline)⟩, feedless_bodyLines _⟩,
      fun line hline => hbehind line (List.mem_of_mem_drop hline)⟩

/-- The lines behind the block of a buffer that was just read are still there after an insertion. -/
theorem body_sublist_of_insert {b : Buffer} {n : Note} {w : World σ} {path : Option Path} {s : Split}
    (hread : Note.ofBuffer b path = .ok n) (hs : b.split = .ok s)
    (h : e.insert p reference at_ { target := n, buffer := b, world := w } = (.ok ins, d')) :
    s.body.Sublist d'.buffer.lines := by
  let d : Desk σ := { target := n, buffer := b, world := w }
  have hdescribes : Describes d.target d.buffer := describes_of_ofBuffer hread
  have hbody : d.body = s.body := by
    obtain ⟨s', hs', hflag, hclosing⟩ := hdescribes
    obtain rfl : s = s' := Except.ok.inj (hs.symm.trans hs')
    exact body_eq_of_describes hs hflag hclosing
  have hlands : Entry.Lands ⟨d, ins, d'⟩ := @lands σ e p reference at_ d d' w ins h
  have hsublist : d.body.Sublist d'.body := hlands.body_sublist hdescribes
  rw [hbody] at hsublist
  exact hsublist.trans (List.drop_sublist _ _)

end Engine

namespace Command

variable {p : Workplace} {template : String} {note : Path} {line : Option Nat} {identity : Identity} {w w' : Terminal}
  {r : Except Trouble Unit}

/-! ### New notes -/

theorem exists?_iff {fs : FileSystem} {path : Path} : fs.exists? path = true ↔ fs.place? path ≠ none :=
  Option.isSome_iff_ne_none

/-- Saving where there is a file at the destination already touches nothing else, and there is a file after. -/
theorem opened_save {fs fs' : FileSystem} {destination : Path} {q : Place} {octets : List UInt8} (n : Note)
    (h : Opened destination fs fs') (hq : fs.destination? destination = some q)
    (hfile : fs'.node? q = some (.file octets)) :
    Opened destination fs (n.save fs' destination).2 ∧
      ∃ octets', (n.save fs' destination).2.node? q = some (.file octets') := by
  have hmade := made_of_ensureParent fs' destination
  unfold Note.save
  cases hparent : fs'.ensureParent destination with
  | mk result after =>
    rw [hparent] at hmade
    have hopened : Opened destination fs after := h.made hmade hq hfile
    have hthere : ∃ octets', after.node? q = some (.file octets') := hmade.grows.file q octets hfile
    cases result with
    | error failure => exact ⟨hopened, hthere⟩
    | ok u =>
      simp only
      split
      · exact ⟨hopened, hthere⟩
      · next lines _ =>
        rcases hopened.storeText (Note.fileText lines) with ⟨q', hq', hstore, hopened'⟩ | ⟨-, fault, -, hstore⟩
        · obtain rfl : q = q' := Option.some.inj (hq.symm.trans hq')
          rw [hstore]
          exact ⟨hopened', _, node?_put_self (ne_root_of_landing? (hopened.lands.trans hq))⟩
        · rw [hstore]
          exact ⟨hopened, hthere⟩

/-- A new note that is not forced is refused, or its path led nowhere and it is made at its destination. -/
theorem runNew_touches (h : runNew p template note identity false w = (r, w')) :
    w'.files = w.files ∧ r ≠ .ok () ∨
      w.files.place? (p.notePath note) = none ∧ OnlyAt (p.notePath note) w.files w'.files ∧
        (r = .ok () → ∃ q octets, w.files.destination? (p.notePath note) = some q ∧
          w'.files.node? q = some (.file octets)) := by
  unfold runNew at h
  simp only at h
  split at h
  · cases h
    exact .inl ⟨rfl, nofun⟩
  · next hfree =>
    have hnone : w.files.place? (p.notePath note) = none := by
      simpa [exists?_iff] using hfree
    refine .inr ⟨hnone, ?_⟩
    split at h
    · next failure w₁ hclone =>
      cases h
      exact ⟨(Engine.cloned hclone).onlyAt, nofun⟩
    · next n w₁ hclone =>
      obtain ⟨hopened, q, octets, hq, hfile⟩ := (Engine.cloned hclone).opened rfl
      obtain ⟨hsaved, octets', hfile'⟩ := opened_save (withHeading identity.title n) hopened hq hfile
      split at h
      · next failure files hsave =>
        rw [hsave] at hsaved
        cases h
        exact ⟨hsaved.toOnlyAt, nofun⟩
      · next files hsave =>
        rw [hsave] at hsaved hfile'
        cases h
        exact ⟨hsaved.toOnlyAt, fun _ => ⟨q, octets', hq, hfile'⟩⟩

/-! ### Insertions -/

theorem ensureDirectory_empty {fs : FileSystem} {d : Path} (h : d.isEmpty = true) : fs.ensureDirectory d = (.ok (), fs) := by
  rw [ensureDirectory, makeDirectories, chainAbove, makeChain, if_pos h]

theorem storeBuffer_eq (b : Buffer) (path : Path) (fs : FileSystem) :
    storeBuffer b path fs = match fs.ensureParent path with
      | (.error failure, fs') => (.error failure, fs')
      | (.ok (), fs') => fs'.storeText path b.text := by
  unfold storeBuffer ensureParent Path.directory
  cases path.parent with
  | none => rfl
  | some d =>
    cases hd : d.isEmpty with
    | true => simp [ensureDirectory_empty hd, Option.filter, hd, Buffer.save]
    | false =>
      simp only [Option.filter, hd, Bool.not_false, if_true]
      cases fs.ensureDirectory d with
      | mk result fs' => cases result <;> rfl

/-- A buffer that is stored replaces the file at its destination, and touches nothing else. -/
theorem storeBuffer_touches {b : Buffer} {path : Path} {fs fs' : FileSystem} {result : Except Failure Unit}
    (h : storeBuffer b path fs = (result, fs')) :
    OnlyAt path fs fs' ∧ (result = .ok () → ∃ q, fs.destination? path = some q ∧
      fs'.node? q = some (.file (encodeUtf8 (closeLines b.lines)))) := by
  rw [storeBuffer_eq, Buffer.text_eq] at h
  have hmade := made_of_ensureParent fs path
  cases hparent : fs.ensureParent path with
  | mk result' after =>
    rw [hparent] at h hmade
    cases result' with
    | error failure =>
      cases h
      exact ⟨(OnlyAt.refl path fs).made hmade, nofun⟩
    | ok u =>
      have hopened := opened_of_ensureParent hparent
      rcases hopened.storeText (closeLines b.lines) with ⟨q, hq, hstore, hopened'⟩ | ⟨-, fault, -, hstore⟩
      · simp only [hstore] at h
        cases h
        have hne : q ≠ [] := ne_root_of_landing? (hopened.lands.trans hq)
        exact ⟨hopened'.toOnlyAt, fun _ => ⟨q, hq, node?_put_self hne⟩⟩
      · simp only [hstore] at h
        cases h
        exact ⟨hopened.toOnlyAt, nofun⟩

/-- The lines behind the block of a file that holds the octets `before` are lines of one that holds `after`, in their
order and each but for a carriage return at its end. -/
def KeepsBody (before after : List UInt8) : Prop :=
  ∃ text text' s, decodeUtf8 before = some text ∧ Divides (textLines text) s ∧ after = encodeUtf8 text' ∧
    (s.body.map unreturned).Sublist (textLines text')

theorem load_eq_ok {fs : FileSystem} {path : Path} {q : Place} {octets : List UInt8} {b : Buffer}
    (h : Buffer.load fs path = .ok b) (hplace : fs.place? path = some q) (hq : fs.node? q = some (.file octets)) :
    ∃ text, decodeUtf8 octets = some text ∧ b.lines = textLines text := by
  unfold Buffer.load at h
  rw [if_pos (exists?_iff.2 (by simp [hplace]))] at h
  obtain ⟨text, htext, rfl⟩ := map_eq_ok h
  refine ⟨text, ?_, rfl⟩
  unfold textAt readText at htext
  rw [Engine.read_of_place? hplace hq] at htext
  cases hdecoded : decodeUtf8 octets with
  | none => simp [hdecoded] at htext
  | some text' =>
    simp only [hdecoded] at htext
    cases htext
    rfl

theorem feedless_load {fs : FileSystem} {path : Path} {b : Buffer} (h : Buffer.load fs path = .ok b) :
    ∀ line ∈ b.lines, Feedless line := by
  unfold Buffer.load at h
  split at h
  · obtain ⟨text, -, rfl⟩ := map_eq_ok h
    exact feedless_textLines text
  · cases h
    nofun

theorem openNote_eq_ok {fs : FileSystem} {path : Path} {b : Buffer} {n : Note} (h : openNote fs path = .ok (b, n)) :
    Buffer.load fs path = .ok b ∧ Note.ofBuffer b (some path) = .ok n := by
  unfold openNote at h
  cases hload : Buffer.load fs path with
  | error failure =>
    rw [hload] at h
    cases h
  | ok b' =>
    rw [hload] at h
    obtain ⟨n', hread, heq⟩ := map_eq_ok h
    cases heq
    exact ⟨rfl, hread⟩

/-- What is stored after an insertion into a buffer that was just loaded keeps the body of the file. -/
theorem keepsBody_of_insert {fs : FileSystem} {path : Path} {q : Place} {octets : List UInt8} {b : Buffer} {n : Note}
    {e : Engine} {reference : String} {at_ : Nat} {d : Engine.Desk Console} {ins : Engine.Insertion}
    (hload : Buffer.load fs path = .ok b) (hread : Note.ofBuffer b (some path) = .ok n)
    (hplace : fs.place? path = some q) (hq : fs.node? q = some (.file octets))
    (hinsert : e.insert Console.prompter reference at_ { target := n, buffer := b, world := w } = (.ok ins, d)) :
    KeepsBody octets (encodeUtf8 (closeLines d.buffer.lines)) := by
  obtain ⟨text, hdecoded, hlines⟩ := load_eq_ok hload hplace hq
  obtain ⟨s, hs, -, -⟩ := describes_of_ofBuffer hread
  have hsublist := Engine.body_sublist_of_insert hread hs hinsert
  have hfeedless := Engine.feedless_of_insert hinsert (feedless_load hload)
  refine ⟨text, closeLines d.buffer.lines, s, hdecoded, hlines ▸ Buffer.split_eq_ok_iff.1 hs, rfl, ?_⟩
  rw [textLines_closeLines hfeedless]
  exact hsublist.map unreturned

/-- The ways in which an insertion can end. -/
inductive InsertRun (p : Workplace) (template : String) (note : Path) (line : Option Nat) (w : Terminal) :
    Except Trouble Unit → Terminal → Prop
  | unopened {failure : Failure} (opens : openNote w.files (p.notePath note) = .error failure) :
      InsertRun p template note line w (.error (.failed failure)) (w.warn p.warnings)
  | refused {b : Buffer} {n : Note} {failure : Failure} {d : Engine.Desk Console}
      (inserts : p.engine.insert Console.prompter template (insertionPoint b line)
        { target := n, buffer := b, world := w.warn p.warnings } = (.error failure, d))
      (same : d.world.files = w.files) :
      InsertRun p template note line w (.error (.failed failure)) d.world
  | unstored {d : Engine.Desk Console} {failure : Failure} {files : FileSystem}
      (stores : storeBuffer d.buffer (p.notePath note) w.files = (.error failure, files)) :
      InsertRun p template note line w (.error (.failed failure)) { d.world with files }
  | stored {b : Buffer} {n : Note} {ins : Engine.Insertion} {d : Engine.Desk Console} {files : FileSystem}
      (loads : Buffer.load w.files (p.notePath note) = .ok b)
      (reads : Note.ofBuffer b (some (p.notePath note)) = .ok n)
      (inserts : p.engine.insert Console.prompter template (insertionPoint b line)
        { target := n, buffer := b, world := w.warn p.warnings } = (.ok ins, d))
      (stores : storeBuffer d.buffer (p.notePath note) w.files = (.ok (), files)) :
      InsertRun p template note line w (.ok ()) (say (insertedText d.world (p.notePath note) ins) { d.world with files })

theorem insertRun (h : runInsert p template note line w = (r, w')) : InsertRun p template note line w r w' := by
  unfold runInsert at h
  simp only at h
  split at h
  · next failure hopen =>
    cases h
    exact .unopened hopen
  · next b n hopen =>
    obtain ⟨hload, hread⟩ := openNote_eq_ok hopen
    have hfiles := Engine.insert_files p.engine Console.prompter template (insertionPoint b line)
      { target := n, buffer := b, world := w.warn p.warnings }
    split at h
    · next failure d hinsert =>
      rw [hinsert] at hfiles
      cases h
      exact .refused hinsert hfiles
    · next ins d hinsert =>
      rw [hinsert] at hfiles
      have hsame : d.world.files = w.files := hfiles
      rw [hsame] at h
      split at h
      · next failure files hstore =>
        cases h
        exact .unstored hstore
      · next files hstore =>
        cases h
        exact .stored hload hread hinsert hstore

/-- An insertion that succeeds leaves the lines behind the block in the file of the note. -/
theorem runInsert_touches (h : runInsert p template note line w = (r, w')) :
    OnlyAt (p.notePath note) w.files w'.files ∧ (r = .ok () → ∀ q octets,
      w.files.place? (p.notePath note) = some q → w.files.node? q = some (.file octets) →
        ∃ octets', w'.files.node? q = some (.file octets') ∧ KeepsBody octets octets') := by
  cases insertRun h with
  | unopened => exact ⟨.refl _ _, nofun⟩
  | refused _ same =>
    rw [same]
    exact ⟨.refl _ _, nofun⟩
  | unstored stores => exact ⟨(storeBuffer_touches stores).1, nofun⟩
  | stored loads reads inserts stores =>
    obtain ⟨honly, hstored⟩ := storeBuffer_touches stores
    refine ⟨honly, fun _ q octets hplace hq => ?_⟩
    obtain ⟨q', hq', hfile⟩ := hstored rfl
    obtain rfl := destination?_of_place? hplace hq'
    exact ⟨_, hfile, keepsBody_of_insert loads reads hplace hq inserts⟩

/-! ### Runs -/

/-- A new note that is not forced leaves every file as it was, but one that its path leads to only once directories are
made, and when it succeeds it is at its destination, where its path led nowhere. An insertion leaves every file but the
note's as it was, and when it succeeds every line behind the block of the note. No path leads to a file only once
directories are made when its own directory is there, or when it does not go up. -/
theorem run_keeps_notes {i : Invocation} {e : Environment} {now : Instant} {workdir : Path}
    (h : i.run e now workdir w = (r, w')) :
    (∀ failure, Workplace.load i e now workdir w.files = .error failure → w'.files = w.files) ∧
      ∀ p, Workplace.load i e now workdir w.files = .ok p →
        (∀ template note identity, i.command = .new template note identity false →
          (∀ q octets, w.files.node? q = some (.file octets) →
            (w'.files.node? q = some (.file octets) ∨
              w.files.destination? (p.notePath note) = some q ∧ w.files.place? (p.notePath note) = none) ∧
            (w.files.Straight (p.notePath note) → w'.files.node? q = some (.file octets))) ∧
          (r = .ok () → w.files.place? (p.notePath note) = none ∧
            ∃ q octets, w.files.destination? (p.notePath note) = some q ∧ w'.files.node? q = some (.file octets))) ∧
        ∀ template note line, i.command = .insert template note line →
          ∀ q octets, w.files.node? q = some (.file octets) →
            (w.files.destination? (p.notePath note) ≠ some q → w'.files.node? q = some (.file octets)) ∧
            (w.files.place? (p.notePath note) = some q → r = .ok () →
              ∃ octets', w'.files.node? q = some (.file octets') ∧ KeepsBody octets octets') ∧
            (w.files.Straight (p.notePath note) → w.files.destination? (p.notePath note) = some q →
              w.files.place? (p.notePath note) = some q) := by
  unfold Invocation.run at h
  cases hload : Workplace.load i e now workdir w.files with
  | error failure =>
    simp only [hload] at h
    cases h
    exact ⟨fun _ _ => rfl, nofun⟩
  | ok p =>
    simp only [hload] at h
    refine ⟨nofun, fun p' hp => ?_⟩
    obtain rfl := Except.ok.inj hp
    refine ⟨fun template note identity hcommand => ?_, fun template note line hcommand q octets hq => ?_⟩
    · rw [hcommand] at h
      rcases runNew_touches h with ⟨hsame, hrefused⟩ | ⟨hnone, honly, hmade⟩
      · rw [hsame]
        exact ⟨fun q octets hq => ⟨.inl hq, fun _ => hq⟩, fun hr => absurd hr hrefused⟩
      · refine ⟨fun q octets hq => ?_, fun hr => ⟨hnone, hmade hr⟩⟩
        by_cases hdestination : w.files.destination? (p.notePath note) = some q
        · refine ⟨.inr ⟨hdestination, hnone⟩, fun hstraight => ?_⟩
          have hplace := hstraight.steady q hdestination (by simp [hq])
          rw [hnone] at hplace
          cases hplace
        · have hkept := honly.kept hq hdestination
          exact ⟨.inl hkept, fun _ => hkept⟩
    · rw [hcommand] at h
      obtain ⟨honly, hbody⟩ := runInsert_touches h
      refine ⟨fun hne => honly.kept hq hne, fun hplace hr => hbody hr q octets hplace hq, fun hstraight hdestination => ?_⟩
      exact hstraight.steady q hdestination (by simp [hq])

/-- A terminal beside a vault at the root, with one template and the note `n/a.md`. -/
def sampleTerminal : Terminal :=
  ⟨{ entries := [(["t"], .directory), (["t", "x.md"], .file (encodeUtf8 "hi\n")), (["n"], .directory),
      (["n", "a.md"], .file (encodeUtf8 "mine\n")), (["c"], .file (encodeUtf8 "templates_dir = \"t\"\n"))] }, {}, []⟩

/-- A new note whose path goes up behind a missing directory takes the place of one that is there. -/
theorem run_overwrites_note :
    ∃ (i : Invocation) (w w' : Terminal), i.command = .new "x" ⟨"m/../n/a.md"⟩ {} false ∧
      i.run {} ⟨0, 0⟩ ⟨"/"⟩ w = (.ok (), w') ∧
      w.files.node? ["n", "a.md"] = some (.file (encodeUtf8 "mine\n")) ∧
      w'.files.node? ["n", "a.md"] ≠ some (.file (encodeUtf8 "mine\n")) ∧
      w.files.destination? ⟨"/m/../n/a.md"⟩ = some ["n", "a.md"] ∧ w.files.place? ⟨"/m/../n/a.md"⟩ = none := by
  let i : Invocation := { command := .new "x" ⟨"m/../n/a.md"⟩ {} false, config := some ⟨"/c"⟩ }
  have hok : (i.run {} ⟨0, 0⟩ ⟨"/"⟩ sampleTerminal).1.toOption = some () := by decide +kernel
  have hchanged : (i.run {} ⟨0, 0⟩ ⟨"/"⟩ sampleTerminal).2.files.node? ["n", "a.md"] ≠
      some (.file (encodeUtf8 "mine\n")) := by decide +kernel
  have hthere : sampleTerminal.files.node? ["n", "a.md"] = some (.file (encodeUtf8 "mine\n")) := rfl
  have hpath : (Workplace.load i {} ⟨0, 0⟩ ⟨"/"⟩ sampleTerminal.files).toOption.map (·.notePath ⟨"m/../n/a.md"⟩) =
      some ⟨"/m/../n/a.md"⟩ := by decide +kernel
  cases hr : i.run {} ⟨0, 0⟩ ⟨"/"⟩ sampleTerminal with
  | mk r w' =>
    rw [hr] at hok hchanged
    obtain rfl : r = .ok () := eq_ok_of_toOption hok
    cases hload : Workplace.load i {} ⟨0, 0⟩ ⟨"/"⟩ sampleTerminal.files with
    | error failure =>
      rw [hload] at hpath
      cases hpath
    | ok p =>
      rw [hload] at hpath
      have hnote : p.notePath ⟨"m/../n/a.md"⟩ = ⟨"/m/../n/a.md"⟩ := Option.some.inj hpath
      obtain ⟨-, hruns⟩ := run_keeps_notes hr
      obtain ⟨hnew, -⟩ := hruns p hload
      obtain ⟨hfiles, -⟩ := hnew "x" ⟨"m/../n/a.md"⟩ {} rfl
      obtain ⟨hkept, -⟩ := hfiles _ _ hthere
      rw [hnote] at hkept
      exact ⟨i, sampleTerminal, w', rfl, hr, hthere, hchanged, hkept.resolve_left hchanged⟩

end Command
end NoteStencil
