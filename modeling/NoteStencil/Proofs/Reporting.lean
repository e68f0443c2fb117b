import NoteStencil.Proofs.Commands
import NoteStencil.Proofs.SameBody
import NoteStencil.Proofs.TypedAnswers
import NoteStencil.Proofs.Values

/-! What an insertion says and what it has done. The lines that it reports are those of the expanded body in the file
that it wrote, counted by line feeds. All others are lines of the note as it was, in order, but for a merged block that
takes the place of the old one. One that fails changes no file. -/

namespace NoteStencil

open FileSystem

/-! ### Lines by line feeds -/

/-- The pieces of a text that end at line feeds, and what is left behind the last. -/
def feedLines (text : String) : List String := (cutAt '\n' text.toList).map fun piece => String.ofList piece.1

theorem feedLines_closeLines {lines : List String} (h : ∀ line ∈ lines, Feedless line) :
    feedLines (closeLines lines) = lines := by
  induction lines with
  | nil => rfl
  | cons line rest ih =>
    obtain ⟨hline, hrest⟩ := List.forall_mem_cons.1 h
    have hbehind : (cutAt '\n' (closeLines rest).toList).map (fun piece => String.ofList piece.1) = rest := ih hrest
    rw [feedLines, toList_closeLines_cons, cutAt_closed _ hline, List.map_cons, hbehind, String.ofList_toList]

/-! ### Questions and results -/

namespace Console

theorem quiet_insert {e : Engine} {reference : String} {at_ : Nat} {d d' : Engine.Desk Console} {ins : Engine.Insertion}
    (h : e.insert prompter reference at_ d = (.ok ins, d')) : Quiet d.world.prompt d'.world.prompt := by
  obtain ⟨path, lines, hpath, hlines, -⟩ := Engine.lands_of_insert h
  rw [Engine.prompt_of_insert h ⟨hpath, hlines⟩]
  exact quiet_expandLines lines (e.contextFor d.target) d.world.prompt

end Console

/-! ### Around the body -/

/-- The lines above a body and behind it, when it was put before a line that is counted from one, or at the end: together
the lines `old` that divide as `s`, but for a block that was merged, which stands above all and takes the place of the
one in `s`. -/
structure Around (old : List String) (s : Split) (line : Option Nat) (merged : Option (List String))
    (top behind : List String) : Prop where
  plain : merged = none → top ++ behind = old
  block : ∀ block, merged = some block → ∃ above, top = block ++ above ∧ above ++ behind = s.body
  last : line = none → behind = []
  before : ∀ n, line = some n → 0 < n → n ≤ old.length → (merged = none ∨ s.block.length < n) →
    behind.head? = old[n - 1]?

theorem head?_drop_point {lines : List String} {n : Nat} (h : n ≤ lines.length) (hn : 0 < n) :
    (lines.drop (min (n - 1) lines.length)).head? = lines[n - 1]? := by
  have hpoint : min (n - 1) lines.length = n - 1 := by omega
  rw [hpoint, List.head?_drop]

namespace Engine

open Command

variable {σ : Type} {e : Engine} {p : Prompter σ} {reference : String} {d d' : Desk σ} {ins : Insertion} {path : Path}
  {lines : List String} {line : Option Nat} {s t : Split}

/-- The body of a template as a note gets it: expanded behind the block, and cut where the values brought breaks. -/
def filledBody (e : Engine) (p : Prompter σ) (t : Split) (n : Note) (s : σ) : List String :=
  let filled := expandLines p t.block (e.contextFor n) s
  bodyLines (expandLines p t.body filled.2.1 filled.2.2).1

/-- The block that the note has once the template's is merged into it. -/
def mergedBlock? (e : Engine) (p : Prompter σ) (path : Path) (t : Split) (n : Note) (s : σ) : Option (List String) :=
  if t.hasBlock then (mergeBlock p t.block path n (e.contextFor n) s).lines.toOption else none

theorem LandsPlain.around {body : List String}
    (h : LandsPlain d d' ins (min (insertionPoint d.buffer line) d.buffer.count) body) :
    ∃ top behind, d'.buffer.lines = top ++ body ++ behind ∧ ins = ⟨false, top.length, top.length + body.length⟩ ∧
      Around d.buffer.lines s line none top behind := by
  have hlength : (d.buffer.lines.take (min (insertionPoint d.buffer line) d.buffer.count)).length =
      min (insertionPoint d.buffer line) d.buffer.count := by
    rw [List.length_take, Buffer.count]
    omega
  refine ⟨_, _, h.lines, ?_, fun _ => List.take_append_drop _ _, ?_, fun hline => ?_, fun n hline hn hle _ => ?_⟩
  · rw [hlength]
    exact h.range
  · intro block hblock
    cases hblock
  · rw [hline]
    simp [insertionPoint, Buffer.count]
  · rw [hline]
    exact head?_drop_point hle hn

theorem LandsMerged.around {u : Note} {block body : List String} (hs : Divides d.buffer.lines s)
    (hold : blockLength d.target d.buffer = s.block.length)
    (h : LandsMerged d d' ins u (blockLength d.target d.buffer)
      (max (min (insertionPoint d.buffer line) d.buffer.count) (blockLength d.target d.buffer) -
        blockLength d.target d.buffer) block body) :
    ∃ top behind, d'.buffer.lines = top ++ body ++ behind ∧ ins = ⟨true, top.length, top.length + body.length⟩ ∧
      Around d.buffer.lines s line (some block) top behind := by
  have hkept : d.buffer.lines.drop s.block.length = s.body := by
    rw [hs.lines_eq, List.drop_left]
  have hcount : d.buffer.count = s.block.length + s.body.length := by
    rw [Buffer.count, hs.lines_eq, List.length_append]
  have hlines := h.lines
  have hrange := h.range
  rw [hold, hkept] at hlines
  rw [hold] at hrange
  -- the point as it counts from behind the old block, where one inside that block counts as none
  generalize hq : max (min (insertionPoint d.buffer line) d.buffer.count) s.block.length - s.block.length = q
    at hlines hrange
  have hlength : (block ++ s.body.take q).length = block.length + q := by
    rw [List.length_append, List.length_take]
    omega
  refine ⟨_, _, hlines, hlength ▸ hrange, ?_, ?_, fun hline => ?_, fun n hline hn hle hbehind => ?_⟩
  · intro hnone
    cases hnone
  · intro block' hblock
    obtain rfl := Option.some.inj hblock
    exact ⟨_, rfl, List.take_append_drop q s.body⟩
  · have hend : insertionPoint d.buffer line = d.buffer.count := by rw [hline]; rfl
    apply List.drop_of_length_le
    omega
  · have hlt : s.block.length < n := hbehind.resolve_left (by simp)
    have hpoint : insertionPoint d.buffer line = n - 1 := by rw [hline]; rfl
    have hq' : q = n - 1 - s.block.length := by
      rw [← Buffer.count] at hle
      omega
    rw [List.head?_drop, hq', hs.lines_eq, List.getElem?_append_right (by omega)]

/-- Where an insertion into a buffer that its note describes has put the body, and what else it did to the lines. -/
theorem around_of_insert {origin : Option Path}
    (h : e.insert p reference (insertionPoint d.buffer line) d = (.ok ins, d'))
    (hread : Note.ofBuffer d.buffer origin = .ok d.target) :
    ∃ path lines t s top behind,
      e.Reads reference d.world.files path lines ∧ Divides lines t ∧ d.buffer.split = .ok s ∧
      d'.buffer.lines = top ++ e.filledBody p t d.target d.world.prompt ++ behind ∧
      ins = ⟨t.hasBlock, top.length, top.length + (e.filledBody p t d.target d.world.prompt).length⟩ ∧
      (e.mergedBlock? p path t d.target d.world.prompt).isSome = t.hasBlock ∧
      Around d.buffer.lines s line (e.mergedBlock? p path t d.target d.world.prompt) top behind := by
  obtain ⟨s, hs, hflag, hclosing⟩ := describes_of_ofBuffer hread
  have hold := blockLength_of_describes hs hflag hclosing
  obtain ⟨path, lines, hpath, hlines, -, hland⟩ := lands_of_insert h
  rcases hland with ⟨hfirst, hland⟩ | ⟨interior, rest, u, block, rfl, hclear, hu, hland⟩
  · obtain ⟨top, behind, hplaced, hins, haround⟩ := hland.around
    exact ⟨path, lines, _, s, top, behind, ⟨hpath, hlines⟩, .plain hfirst, hs, hplaced, hins, rfl, haround⟩
  · obtain ⟨top, behind, hplaced, hins, haround⟩ := hland.around (Buffer.split_eq_ok_iff.1 hs) hold
    have hwritten : (d.target.absorb u).blockLines = .ok block := by
      have hwritten := hland.written
      rwa [hland.target] at hwritten
    have hmerged : e.mergedBlock? p path ⟨delimiter :: interior ++ [delimiter], rest, true⟩ d.target d.world.prompt =
        some block := by
      rw [mergedBlock?, if_pos rfl, mergeBlock_read hu]
      simp only [hwritten]
      rfl
    refine ⟨path, _, _, s, top, behind, ⟨hpath, hlines⟩, .block hclear, hs, hplaced, hins, ?_, ?_⟩
    · rw [hmerged]
      rfl
    · rw [hmerged]
      exact haround

end Engine

/-! ### Files -/

theorem FileSystem.Made.file_iff {kind : Path → Prop} {fs fs' : FileSystem} (h : Made kind fs fs') (q : Place)
    (octets : List UInt8) : fs'.node? q = some (.file octets) ↔ fs.node? q = some (.file octets) := by
  rcases h.only q with hsame | ⟨hfree, hnew, -⟩
  · rw [hsame]
  · rw [hfree, hnew]
    simp

namespace Command

variable {b : Buffer} {path : Path} {fs fs' : FileSystem}

/-- A buffer that cannot be stored leaves directories at most. -/
theorem made_of_storeBuffer {failure : Failure} (h : storeBuffer b path fs = (.error failure, fs')) :
    Made path.Above fs fs' := by
  rw [storeBuffer_eq] at h
  have hmade := made_of_ensureParent fs path
  cases hparent : fs.ensureParent path with
  | mk result after =>
    rw [hparent] at h hmade
    cases result with
    | error failure' =>
      cases h
      exact hmade
    | ok u =>
      rcases (opened_of_ensureParent hparent).storeText b.text with ⟨q, -, hstore, -⟩ | ⟨-, fault, -, hstore⟩
      · simp only [hstore] at h
        cases h
      · simp only [hstore] at h
        cases h
        exact hmade

theorem read_of_storeBuffer (h : storeBuffer b path fs = (.ok (), fs')) :
    fs'.read path = .ok (encodeUtf8 (closeLines b.lines)) := by
  rw [storeBuffer_eq, Buffer.text_eq] at h
  split at h
  · cases h
  · exact read_storeText h

variable {p : Workplace} {template : String} {note : Path} {line : Option Nat} {w w' : Terminal}

theorem made_of_runInsert {trouble : Trouble} (h : runInsert p template note line w = (.error trouble, w')) :
    Made (p.notePath note).Above w.files w'.files := by
  have hrun := insertRun h
  cases hrun with
  | unopened => exact .refl _ _
  | refused _ same =>
    rw [same]
    exact .refl _ _
  | unstored stores => exact made_of_storeBuffer stores

/-! ### Runs -/

/-- What an insertion prints when it succeeds. -/
def report (color : Bool) (path : Path) (count first : Nat) (merged : Bool) : String :=
  Style.boldGreen.paint color "Inserted" ++ " " ++ toString count ++ " lines into " ++ path.text ++ " at line " ++
    toString first ++ (if merged then " (frontmatter merged)" else "") ++ "\n"

theorem said_of_insert {e : Engine} {reference : String} {at_ : Nat} {d d' : Engine.Desk Console} {ins : Engine.Insertion}
    (h : e.insert Console.prompter reference at_ d = (.ok ins, d')) (path : Path) (files : FileSystem) :
    (say (insertedText d'.world path ins) { d'.world with files }).prompt.out = d.world.prompt.out ++
      report d.world.prompt.color path (ins.stop - ins.start) (ins.start + 1) ins.merged := by
  have hquiet := Console.quiet_insert h
  rw [← hquiet.out, ← hquiet.color]
  rfl

/-- An insertion that fails leaves every file as it is. One that succeeds tells how many lines it put in and where the
first of them is, and those lines of the file, by its line feeds, are the template's body; without a line to put them
before they are the last, and else that line stands behind them, if it was there and behind the block or no block was
merged. The other lines are those of the note, but for a block that was merged. -/
theorem run_reports_insertion {i : Invocation} {e : Environment} {now : Instant} {workdir : Path}
    {r : Except Trouble Unit} (hcommand : i.command = .insert template note line)
    (h : i.run e now workdir w = (r, w')) :
    (∀ trouble, r = .error trouble → ∀ q octets,
      w'.files.node? q = some (.file octets) ↔ w.files.node? q = some (.file octets)) ∧
    (r = .ok () → ∃ p b target s path lines t top behind text,
      Workplace.load i e now workdir w.files = .ok p ∧
      Buffer.load w.files (p.notePath note) = .ok b ∧ b.split = .ok s ∧
      Note.ofBuffer b (some (p.notePath note)) = .ok target ∧
      p.engine.Reads template w.files path lines ∧ Divides lines t ∧
      let body := p.engine.filledBody Console.prompter t target w.prompt
      let merged := p.engine.mergedBlock? Console.prompter path t target w.prompt
      w'.prompt.out = w.prompt.out ++
        report w.prompt.color (p.notePath note) body.length (top.length + 1) t.hasBlock ∧
      w'.files.read (p.notePath note) = .ok (encodeUtf8 text) ∧ feedLines text = top ++ body ++ behind ∧
      merged.isSome = t.hasBlock ∧ Around b.lines s line merged top behind) := by
  unfold Invocation.run at h
  cases hload : Workplace.load i e now workdir w.files with
  | error failure =>
    simp only [hload] at h
    cases h
    exact ⟨fun _ _ _ _ => .rfl, nofun⟩
  | ok p =>
    simp only [hload, hcommand] at h
    constructor
    · intro trouble hr
      subst hr
      exact (made_of_runInsert h).file_iff
    · intro hr
      subst hr
      have hrun := insertRun h
      cases hrun with
      | @stored b target ins d files loads reads inserts stores =>
        obtain ⟨path, lines, t, s, top, behind, hreads, hd, hs, hlines, hins, hmerged, haround⟩ :=
          Engine.around_of_insert inserts reads
        have hsaid := said_of_insert inserts (p.notePath note) files
        rw [hins, Nat.add_sub_cancel_left] at hsaid
        have hfeedless := Engine.feedless_of_insert inserts (feedless_load loads)
        refine ⟨p, b, target, s, path, lines, t, top, behind, _, rfl, loads, hs, reads, hreads, hd, ?_,
          read_of_storeBuffer stores, ?_, hmerged, haround⟩
        · rw [hins]
          exact hsaid
        · rw [feedLines_closeLines hfeedless]
          exact hlines

/-- A template with a block, put before the last line of a note that has a block, which grows by two lines. -/
theorem run_reports_merged :
    let w : Terminal := ⟨{ entries := [(["t"], .directory), (["t", "x.md"], .file
      (encodeUtf8 "---\ntags: [z]\n---\nto \x7b\x7btitle\x7d\x7d\n")), (["n"], .directory),
      (["n", "a.md"], .file (encodeUtf8 "---\nid: a\n---\none\ntwo\n")),
      (["c"], .file (encodeUtf8 "templates_dir = \"t\"\n"))] }, {}, []⟩
    let i : Invocation := { command := .insert "x" ⟨"n/a.md"⟩ (some 5), config := some ⟨"/c"⟩ }
    let w' := (i.run {} ⟨0, 0⟩ ⟨"/"⟩ w).2
    ∃ top behind text, w'.files.read ⟨"/n/a.md"⟩ = .ok (encodeUtf8 text) ∧ feedLines text = top ++ ["to a"] ++ behind ∧
      w'.prompt.out = report false ⟨"/n/a.md"⟩ 1 (top.length + 1) true ∧ behind.head? = some "two" ∧
      ∃ above, top = ["---", "id: a", "tags:", "- z", "---"] ++ above ∧ above ++ behind = ["one", "two"] := by
  intro w i w'
  let p : Workplace :=
    { config := { templatesDir := some "t", vault := some ⟨"/"⟩ }, root := ⟨"/"⟩, environment := {}, now := ⟨0, 0⟩ }
  have h : i.run {} ⟨0, 0⟩ ⟨"/"⟩ w = (.ok (), w') := pair_eq_ok (by decide +kernel)
  have hload : Workplace.load i {} ⟨0, 0⟩ ⟨"/"⟩ w.files = .ok p := by
    have hconfig : Config.loadOptional w.files {} i.config = .ok { templatesDir := some "t" } :=
      eq_ok_of_toOption (by decide +kernel)
    rw [Workplace.load, hconfig]
    rfl
  have hpath : p.notePath ⟨"n/a.md"⟩ = ⟨"/n/a.md"⟩ := by decide +kernel
  have hbuffer : Buffer.load w.files ⟨"/n/a.md"⟩ = .ok { lines := ["---", "id: a", "---", "one", "two"] } :=
    eq_ok_of_toOption (by decide +kernel)
  have hknown : p.engine.Reads "x" w.files ⟨"/t/x.md"⟩ ["---", "tags: [z]", "---", "to \x7b\x7btitle\x7d\x7d"] :=
    Engine.reads_iff.2 ⟨eq_ok_of_toOption (by decide +kernel), by decide +kernel⟩
  let template : Split := ⟨["---", "tags: [z]", "---"], ["to \x7b\x7btitle\x7d\x7d"], true⟩
  have hdivided : Divides (delimiter :: ["tags: [z]"] ++ delimiter :: ["to \x7b\x7btitle\x7d\x7d"]) template :=
    .block (by decide)
  let note : Note :=
    { id := some "a"
      path := some ⟨"/n/a.md"⟩
      hasFrontmatter := true
      closingLine := some 2
      body := ["one", "two"] }
  have hbody : p.engine.filledBody Console.prompter template note w.prompt = ["to a"] := by decide +kernel
  have hblock : p.engine.mergedBlock? Console.prompter ⟨"/t/x.md"⟩ template note w.prompt =
      some ["---", "id: a", "tags:", "- z", "---"] := by decide +kernel
  obtain ⟨p', b, target, s, path, lines, t, top, behind, text, hload', hbuffer', hs, hread, hreads, hd, hout, hstored,
    hlines, -, haround⟩ := (run_reports_insertion rfl h).2 rfl
  obtain rfl : p = p' := Except.ok.inj (hload.symm.trans hload')
  rw [hpath] at hbuffer' hread hout hstored
  obtain rfl := Except.ok.inj (hbuffer.symm.trans hbuffer')
  obtain ⟨rfl, rfl⟩ := hknown.unique hreads
  obtain rfl : t = template := hd.unique hdivided
  obtain rfl : target = note := Except.ok.inj (hread.symm.trans (eq_ok_of_toOption (by decide +kernel)))
  rw [hbody] at hout hlines
  rw [hblock] at haround
  have hdivided' : Divides (delimiter :: ["id: a"] ++ delimiter :: ["one", "two"])
      ⟨["---", "id: a", "---"], ["one", "two"], true⟩ := .block (by decide)
  obtain rfl := (Buffer.split_eq_ok_iff.1 hs).unique hdivided'
  refine ⟨top, behind, text, hstored, hlines, hout, ?_, haround.block _ rfl⟩
  exact haround.before 5 rfl (by decide) (by decide) (.inr (by decide))

end Command
end NoteStencil
