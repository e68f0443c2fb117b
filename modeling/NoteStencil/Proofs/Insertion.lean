import NoteStencil.Proofs.NoteFields
import NoteStencil.Template.Engine

/-! What an insertion does to the desk. When it succeeds, the body stands at the point in the old lines, or the note's
new block stands in place of the old one with the body behind it. When it fails the buffer is as it was, and so
is the note unless the template's metadata was taken over and then had no written form. -/

namespace NoteStencil

/-! ### Splices -/

theorem Buffer.replace_point {b : Buffer} {point : Nat} (new : List String) (h : point ≤ b.count) :
    (b.replace point point new).lines = b.lines.take point ++ new ++ b.lines.drop point := by
  simp [Buffer.replace, Nat.min_eq_left h]

theorem Buffer.replace_top (b : Buffer) (n : Nat) (new : List String) :
    (b.replace 0 n new).lines = new ++ b.lines.drop n := by
  unfold Buffer.replace Buffer.count
  simp only [Nat.zero_min, List.take_zero, List.nil_append]
  rcases Nat.le_total n b.lines.length with h | h
  · rw [Nat.min_eq_left h]
  · rw [Nat.min_eq_right h, List.drop_length, List.drop_eq_nil_of_le h]

theorem Buffer.slice_eq {b : Buffer} {xs body ys : List String} (h : b.lines = xs ++ body ++ ys) :
    b.slice xs.length (xs.length + body.length) = body := by
  simp [Buffer.slice, Buffer.count, h]

namespace Engine

variable {σ : Type}

theorem blockLength_le (n : Note) (b : Buffer) : blockLength n b ≤ b.count := by
  unfold blockLength
  split
  · split
    · exact Nat.min_le_right _ _
    · exact Nat.zero_le _
  · exact Nat.zero_le _

theorem blockLength_eq (n : Note) (b : Buffer) :
    blockLength n b = match n.hasFrontmatter, n.closingLine with
      | true, some last => min (last + 1) b.count
      | _, _ => 0 := by
  unfold blockLength
  cases n.hasFrontmatter <;> cases n.closingLine <;> rfl

theorem blockLength_absorb (n template : Note) (b : Buffer) : blockLength (n.absorb template) b = blockLength n b := by
  rw [Note.absorb_eq]
  rfl

theorem shiftPoint_eq (point old new : Nat) : shiftPoint point old new = new + (max point old - old) := by
  unfold shiftPoint
  split <;> omega

theorem placeBody_lines {b : Buffer} {point : Nat} (body : List String) (h : point ≤ b.count) :
    (placeBody b point body).lines = b.lines.take point ++ body ++ b.lines.drop point :=
  Buffer.replace_point body h

theorem placeBody_count {b : Buffer} {point : Nat} (body : List String) (h : point ≤ b.count) :
    (placeBody b point body).count = b.count + body.length := by
  unfold Buffer.count at h ⊢
  rw [placeBody_lines body h]
  simp only [List.length_append, List.length_take, List.length_drop]
  omega

theorem placeBody_cursor {b : Buffer} {point : Nat} (body : List String) (h : point ≤ b.count) :
    (placeBody b point body).cursor = max (point + body.length - 1) point := by
  have hcount : (b.replace point point body).count = b.count + body.length := placeBody_count body h
  simp only [placeBody, Buffer.setCursor, hcount]
  omega

/-! ### Stages -/

/-- The template that a reference stands for, read as a whole. -/
def readTemplate (e : Engine) (reference : String) (w : World σ) : Except Failure (Path × Split) :=
  match (e.resolve reference w).1 with
  | .error failure => .error failure
  | .ok path => (sourceAt w.files path).split.map (path, ·)

theorem readTemplate_eq_ok_iff {e : Engine} {reference : String} {w : World σ} {path : Path} {template : Split} :
    e.readTemplate reference w = .ok (path, template) ↔
      (e.resolve reference w).1 = .ok path ∧
        ∃ lines, (sourceAt w.files path).rest = lines.map .ok ∧ Divides lines template := by
  unfold readTemplate
  rw [← split_eq_ok_iff]
  cases (e.resolve reference w).1 with
  | error failure => simp
  | ok found =>
    constructor
    · intro h
      obtain ⟨s, hs, heq⟩ := map_eq_ok h
      cases heq
      exact ⟨rfl, hs⟩
    · rintro ⟨heq, hs⟩
      cases heq
      simp [hs, Except.map]

/-- Looking a template up leaves warnings at most. -/
def Desk.looked (d : Desk σ) (e : Engine) (reference : String) : Desk σ :=
  { d with world := (e.resolve reference d.world).2 }

theorem insert_eq (e : Engine) (p : Prompter σ) (reference : String) (at_ : Nat) (d : Desk σ) :
    e.insert p reference at_ d =
      match e.readTemplate reference d.world with
      | .error failure => (.error failure, d.looked e reference)
      | .ok (path, template) =>
        e.insertSplit p path template (min at_ d.buffer.count) (d.looked e reference) := by
  unfold insert readTemplate Desk.looked
  have hfiles : (e.resolve reference d.world).2.files = d.world.files := rfl
  cases hr : e.resolve reference d.world with
  | mk result world =>
    rw [hr] at hfiles
    cases result with
    | error failure => rfl
    | ok path =>
      simp only at hfiles
      simp only [hfiles]
      cases (sourceAt d.world.files path).split <;> rfl

theorem insertBody_eq (p : Prompter σ) (body : List String) (c : Context) (merged : Bool) (point : Nat) (d : Desk σ) :
    insertBody p body c merged point d =
      (⟨merged, point, point + (bodyLines (expandLines p body c d.world.prompt).1).length⟩,
        { d with
          buffer := placeBody d.buffer point (bodyLines (expandLines p body c d.world.prompt).1)
          world := d.world.expanded (expandLines p body c d.world.prompt).2.2 c
            (expandLines p body c d.world.prompt).2.1 }) := rfl

theorem mergeBlock_unread {p : Prompter σ} {block : List String} {origin : Path} {target : Note} {c : Context} {s : σ}
    {failure : Failure} (h : Note.ofLines (expandLines p block c s).1 (some origin) = .error failure) :
    mergeBlock p block origin target c s =
      ⟨.error failure, target, (expandLines p block c s).2.1, (expandLines p block c s).2.2⟩ := by
  simp only [mergeBlock, h]

theorem mergeBlock_read {p : Prompter σ} {block : List String} {origin : Path} {target template : Note} {c : Context}
    {s : σ} (h : Note.ofLines (expandLines p block c s).1 (some origin) = .ok template) :
    mergeBlock p block origin target c s =
      ⟨(target.absorb template).blockLines, target.absorb template,
        (expandLines p block c s).2.1, (expandLines p block c s).2.2⟩ := by
  simp only [mergeBlock, h]

/-- The desk with the new block in place, where the body still has to go. -/
def Desk.blocked (d : Desk σ) (template : Note) (block : List String) (w : World σ) : Desk σ :=
  { target := { d.target.absorb template with hasFrontmatter := true, closingLine := some (block.length - 1) }
    buffer := d.buffer.replace 0 (blockLength d.target d.buffer) block
    world := w }

/-- How inserting a template that has been read can go, and what it leaves. -/
inductive Course (e : Engine) (p : Prompter σ) (path : Path) (template : Split) (point : Nat) (d : Desk σ) :
    Except Failure Insertion × Desk σ → Prop
  | plain (noBlock : template.hasBlock = false) :
      Course e p path template point d
        (.ok (insertBody p template.body (e.contextFor d.target) false point d).1,
          (insertBody p template.body (e.contextFor d.target) false point d).2)
  | unread {failure : Failure} (w : World σ) (block : template.hasBlock = true)
      (reads : Note.ofLines (expandLines p template.block (e.contextFor d.target) d.world.prompt).1 (some path) =
        .error failure) :
      Course e p path template point d (.error failure, { d with world := w })
  | unwritten {t : Note} {failure : Failure} (w : World σ) (block : template.hasBlock = true)
      (reads : Note.ofLines (expandLines p template.block (e.contextFor d.target) d.world.prompt).1 (some path) = .ok t)
      (writes : (d.target.absorb t).blockLines = .error failure) :
      Course e p path template point d (.error failure, { d with target := d.target.absorb t, world := w })
  | merged {t : Note} {lines : List String} (w : World σ) (block : template.hasBlock = true)
      (reads : Note.ofLines (expandLines p template.block (e.contextFor d.target) d.world.prompt).1 (some path) = .ok t)
      (writes : (d.target.absorb t).blockLines = .ok lines)
      (prompt : w.prompt = (expandLines p template.block (e.contextFor d.target) d.world.prompt).2.2) :
      Course e p path template point d
        ((fun r : Insertion × Desk σ => (.ok r.1, r.2))
          (insertBody p template.body (expandLines p template.block (e.contextFor d.target) d.world.prompt).2.1 true
            (lines.length + (max point (blockLength d.target d.buffer) - blockLength d.target d.buffer))
            (d.blocked t lines w)))

theorem insertSplit_course (e : Engine) (p : Prompter σ) (path : Path) (template : Split) (point : Nat)
    (d : Desk σ) : Course e p path template point d (e.insertSplit p path template point d) := by
  cases hb : template.hasBlock with
  | false =>
    simp only [insertSplit, hb, Bool.false_eq_true, if_false]
    exact .plain hb
  | true =>
    cases ht : Note.ofLines (expandLines p template.block (e.contextFor d.target) d.world.prompt).1 (some path) with
    | error failure =>
      simp only [insertSplit, hb, if_true, mergeBlock_unread ht]
      exact .unread _ hb ht
    | ok t =>
      cases hl : (d.target.absorb t).blockLines with
      | error failure =>
        simp only [insertSplit, hb, if_true, mergeBlock_read ht, hl]
        exact .unwritten _ hb ht hl
      | ok lines =>
        simp only [insertSplit, hb, if_true, mergeBlock_read ht, hl, placeBlock, blockLength_absorb, shiftPoint_eq]
        exact .merged (d.world.expanded _ (e.contextFor d.target) _) hb ht hl rfl

/-! ### Where the lines land -/

/-- Where the body goes in a buffer that starts with the new block. -/
theorem blocked_point_le {d : Desk σ} (t : Note) (block : List String) (w : World σ) {point : Nat}
    (h : point ≤ d.buffer.count) :
    block.length + (max point (blockLength d.target d.buffer) - blockLength d.target d.buffer) ≤
      (d.blocked t block w).buffer.count := by
  have hold := blockLength_le d.target d.buffer
  unfold Buffer.count Desk.blocked at *
  rw [Buffer.replace_top, List.length_append, List.length_drop]
  omega

theorem blocked_lines {d : Desk σ} {t : Note} {block body : List String} {w : World σ} {q : Nat}
    (h : block.length + q ≤ (d.blocked t block w).buffer.count) :
    (placeBody (d.blocked t block w).buffer (block.length + q) body).lines =
      block ++ (d.buffer.lines.drop (blockLength d.target d.buffer)).take q ++ body ++
        (d.buffer.lines.drop (blockLength d.target d.buffer)).drop q := by
  rw [placeBody_lines body h, Desk.blocked, Buffer.replace_top, List.take_length_add_append, List.drop_length_add_append]

/-- The body at a point of the old lines, and nothing else done. -/
structure LandsPlain (d d' : Desk σ) (ins : Insertion) (point : Nat) (body : List String) : Prop where
  lines : d'.buffer.lines = d.buffer.lines.take point ++ body ++ d.buffer.lines.drop point
  range : ins = ⟨false, point, point + body.length⟩
  target : d'.target = d.target

/-- The block of the note with what `t` brings in place of `old` lines, and the body after `q` of those that followed
them. -/
structure LandsMerged (d d' : Desk σ) (ins : Insertion) (t : Note) (old q : Nat) (block body : List String) :
    Prop where
  lines : d'.buffer.lines =
    block ++ (d.buffer.lines.drop old).take q ++ body ++ (d.buffer.lines.drop old).drop q
  range : ins = ⟨true, block.length + q, block.length + q + body.length⟩
  written : d'.target.blockLines = .ok block
  target : d'.target =
    { d.target.absorb t with hasFrontmatter := true, closingLine := some (block.length - 1) }

theorem placeBody_cursor_range {b : Buffer} {merged : Bool} {point : Nat} (body : List String) (h : point ≤ b.count) :
    (placeBody b point body).cursor =
        max ((⟨merged, point, point + body.length⟩ : Insertion).stop - 1)
          (⟨merged, point, point + body.length⟩ : Insertion).start ∧
      (⟨merged, point, point + body.length⟩ : Insertion).stop ≤ (placeBody b point body).count := by
  refine ⟨placeBody_cursor body h, ?_⟩
  rw [placeBody_count body h]
  exact Nat.add_le_add_right h _

theorem lands_of_insertSplit {e : Engine} {p : Prompter σ} {path : Path} {template : Split} {point : Nat}
    {d d' : Desk σ} {ins : Insertion} (hpoint : point ≤ d.buffer.count)
    (h : e.insertSplit p path template point d = (.ok ins, d')) :
    (d'.buffer.cursor = max (ins.stop - 1) ins.start ∧ ins.stop ≤ d'.buffer.count) ∧
      ((template.hasBlock = false ∧
          LandsPlain d d' ins point (bodyLines (expandLines p template.body (e.contextFor d.target) d.world.prompt).1)) ∨
        (template.hasBlock = true ∧ ∃ t block,
          Note.ofLines (expandLines p template.block (e.contextFor d.target) d.world.prompt).1 (some path) = .ok t ∧
          LandsMerged d d' ins t (blockLength d.target d.buffer)
            (max point (blockLength d.target d.buffer) - blockLength d.target d.buffer) block
            (bodyLines (expandLines p template.body
              (expandLines p template.block (e.contextFor d.target) d.world.prompt).2.1
              (expandLines p template.block (e.contextFor d.target) d.world.prompt).2.2).1))) := by
  have hcourse := insertSplit_course e p path template point d
  rw [h] at hcourse
  cases hcourse with
  | plain hb => exact ⟨placeBody_cursor_range _ hpoint, .inl ⟨hb, placeBody_lines _ hpoint, rfl, rfl⟩⟩
  | @merged t block w hb ht hl hprompt =>
    have hq := blocked_point_le t block w hpoint
    have hprompt' : (d.blocked t block w).world.prompt = _ := hprompt
    rw [insertBody_eq, hprompt']
    exact ⟨placeBody_cursor_range _ hq, .inr ⟨hb, t, block, ht, blocked_lines hq, rfl, hl, rfl⟩⟩

/-- All that an insertion that succeeds can have done. -/
theorem lands_of_insert {e : Engine} {p : Prompter σ} {reference : String} {at_ : Nat} {d d' : Desk σ}
    {ins : Insertion} (h : e.insert p reference at_ d = (.ok ins, d')) :
    ∃ path lines,
      (e.resolve reference d.world).1 = .ok path ∧
      (sourceAt d.world.files path).rest = lines.map .ok ∧
      (d'.buffer.cursor = max (ins.stop - 1) ins.start ∧ ins.stop ≤ d'.buffer.count) ∧
      ((lines.head? ≠ some delimiter ∧
          LandsPlain d d' ins (min at_ d.buffer.count)
            (bodyLines (expandLines p lines (e.contextFor d.target) d.world.prompt).1)) ∨
        ∃ interior rest t block,
          lines = delimiter :: interior ++ delimiter :: rest ∧ delimiter ∉ interior ∧
          Note.ofLines (expandLines p (delimiter :: interior ++ [delimiter]) (e.contextFor d.target)
            d.world.prompt).1 (some path) = .ok t ∧
          LandsMerged d d' ins t (blockLength d.target d.buffer)
            (max (min at_ d.buffer.count) (blockLength d.target d.buffer) - blockLength d.target d.buffer) block
            (bodyLines (expandLines p rest
              (expandLines p (delimiter :: interior ++ [delimiter]) (e.contextFor d.target) d.world.prompt).2.1
              (expandLines p (delimiter :: interior ++ [delimiter]) (e.contextFor d.target) d.world.prompt).2.2).1)) := by
  rw [insert_eq] at h
  cases hr : e.readTemplate reference d.world with
  | error failure => simp [hr] at h
  | ok found =>
    obtain ⟨path, template⟩ := found
    obtain ⟨hpath, lines, hlines, hd⟩ := readTemplate_eq_ok_iff.1 hr
    simp only [hr] at h
    obtain ⟨hcursor, hland⟩ := lands_of_insertSplit (Nat.min_le_right _ _) h
    refine ⟨path, lines, hpath, hlines, hcursor, ?_⟩
    -- the looked-up desk has the same note, buffer and prompt, so its landing is the desk's own
    cases hd with
    | plain hfirst =>
      rcases hland with ⟨-, hland⟩ | ⟨hb, -⟩
      · exact .inl ⟨hfirst, hland.lines, hland.range, hland.target⟩
      · cases hb
    | @block interior rest hclear =>
      rcases hland with ⟨hb, -⟩ | ⟨-, t, block, ht, hland⟩
      · cases hb
      · exact .inr ⟨interior, rest, t, block, rfl, hclear, ht,
          hland.lines, hland.range, hland.written, hland.target⟩

/-- Without a block the body is spliced into the lines and the note stays. With one the note's block, written anew,
takes the place of the old one, and the body stands after as many of the lines behind it as the point asks for. -/
theorem insert_places_body {e : Engine} {p : Prompter σ} {reference : String} {at_ : Nat} {d d' : Desk σ}
    {ins : Insertion} (h : e.insert p reference at_ d = (.ok ins, d')) :
    let point := min at_ d.buffer.count
    let old := match d.target.hasFrontmatter, d.target.closingLine with
      | true, some last => min (last + 1) d.buffer.count
      | _, _ => 0
    let c := e.contextFor d.target
    ∃ path lines,
      (e.resolve reference d.world).1 = .ok path ∧
      (sourceAt d.world.files path).rest = lines.map .ok ∧
      d'.buffer.cursor = max (ins.stop - 1) ins.start ∧ ins.stop ≤ d'.buffer.count ∧
      ((lines.head? ≠ some delimiter ∧
          let body := (expandLines p lines c d.world.prompt).1.flatMap splitLines
          d'.buffer.lines = d.buffer.lines.take point ++ body ++ d.buffer.lines.drop point ∧
          ins = ⟨false, point, point + body.length⟩ ∧
          d'.target = d.target) ∨
        ∃ interior rest t block,
          lines = delimiter :: interior ++ delimiter :: rest ∧ delimiter ∉ interior ∧
          let behind := expandLines p (delimiter :: interior ++ [delimiter]) c d.world.prompt
          Note.ofLines behind.1 (some path) = .ok t ∧
          d'.target =
            { d.target.absorb t with hasFrontmatter := true, closingLine := some (block.length - 1) } ∧
          d'.target.blockLines = .ok block ∧
          let body := (expandLines p rest behind.2.1 behind.2.2).1.flatMap splitLines
          let kept := d.buffer.lines.drop old
          let q := max point old - old
          d'.buffer.lines = block ++ kept.take q ++ body ++ kept.drop q ∧
          ins = ⟨true, block.length + q, block.length + q + body.length⟩) := by
  intro point old c
  have hold : blockLength d.target d.buffer = old := blockLength_eq d.target d.buffer
  obtain ⟨path, lines, hpath, hlines, ⟨hcursor, hstop⟩, hland⟩ := lands_of_insert h
  refine ⟨path, lines, hpath, hlines, hcursor, hstop, ?_⟩
  rcases hland with ⟨hfirst, hland⟩ | ⟨interior, rest, t, block, hl, hclear, ht, hland⟩
  · exact .inl ⟨hfirst, hland.lines, hland.range, hland.target⟩
  · rw [hold] at hland
    exact .inr ⟨interior, rest, t, block, hl, hclear, ht, hland.target, hland.written, hland.lines, hland.range⟩

/-- An engine whose templates lie in `/t`. -/
def sampleEngine : Engine := ⟨some ⟨"/t"⟩, {}, ⟨0, 0⟩⟩

/-- A desk beside a single template, `x`. -/
def sampleDesk (template : String) (target : Note) (lines : List String) : Desk Unit :=
  ⟨target, { lines }, ⟨{ entries := [(["t"], .directory), (["t", "x.md"], .file (encodeUtf8 template))] }, (), []⟩⟩

/-- A point inside the old block: the body goes behind the new one, which is two lines longer. -/
theorem insert_inside_block :
    let d := sampleDesk "---\ntags: [z]\n---\nnew\n" { id := some "a", hasFrontmatter := true, closingLine := some 2 }
      ["---", "id: a", "---", "body"]
    let d' := (sampleEngine.insert (.silent Unit) "x" 1 d).2
    ∃ block, d'.target.blockLines = .ok block ∧ block.length = 5 ∧ d'.target.closingLine = some 4 ∧
      d'.buffer.cursor = 5 := by
  intro d d'
  have h : sampleEngine.insert (.silent Unit) "x" 1 d = (.ok ⟨true, 5, 6⟩, d') :=
    pair_eq_ok (by decide +kernel)
  obtain ⟨path, lines, -, -, hcursor, -, hland⟩ := insert_places_body h
  rcases hland with ⟨-, -, hins, -⟩ | ⟨interior, rest, t, block, -, -, -, htarget, hblock, -, hins⟩
  · cases hins
  · have hlength : block.length = 5 := (Insertion.mk.inj hins).2.1.symm
    have hclosing : d'.target.closingLine = some (block.length - 1) := by rw [htarget]
    rw [hlength] at hclosing
    exact ⟨block, hblock, hlength, hclosing, hcursor⟩

/-! ### Failures -/

theorem write_nil : Yaml.write? [] ≠ none := by decide +kernel

theorem blockLines_eq_error_iff {n : Note} {failure : Failure} :
    n.blockLines = .error failure ↔
      Yaml.write? n.frontmatter = none ∧ failure = .metadata n.origin Note.unwritableReason := by
  unfold Note.blockLines Note.metadataLines
  split
  · next hnil => simp [hnil, write_nil, Except.map]
  · cases Yaml.write? n.frontmatter with
    | none => simp [Except.map, eq_comm]
    | some text => simp [Except.map]

/-- The note that a template's block reads as, when the template has a block and all of it can be read. -/
def blockNote? (e : Engine) (p : Prompter σ) (reference : String) (d : Desk σ) : Option Note :=
  match e.readTemplate reference d.world with
  | .error _ => none
  | .ok (path, template) =>
    if template.hasBlock then
      (Note.ofLines (expandLines p template.block (e.contextFor d.target) d.world.prompt).1 (some path)).toOption
    else none

/-- Nothing that can fail comes after the note took over the metadata, but for the writing of it. -/
theorem insert_error_cases {e : Engine} {p : Prompter σ} {reference : String} {at_ : Nat} {d d' : Desk σ}
    {failure : Failure} (h : e.insert p reference at_ d = (.error failure, d')) :
    d'.buffer = d.buffer ∧
      ((e.blockNote? p reference d = none ∧ d'.target = d.target) ∨
        ∃ t, e.blockNote? p reference d = some t ∧ (d.target.absorb t).blockLines = .error failure ∧
          d'.target = d.target.absorb t) := by
  rw [insert_eq] at h
  unfold blockNote?
  cases hr : e.readTemplate reference d.world with
  | error failure' =>
    simp only [hr] at h
    cases h
    exact ⟨rfl, .inl ⟨rfl, rfl⟩⟩
  | ok found =>
    obtain ⟨path, template⟩ := found
    simp only [hr] at h
    have hcourse := insertSplit_course e p path template (min at_ d.buffer.count) (d.looked e reference)
    rw [h] at hcourse
    cases hcourse with
    | unread w hb ht =>
      -- looking the template up left the note and the prompt as they were
      have ht : Note.ofLines (expandLines p template.block (e.contextFor d.target) d.world.prompt).1 (some path) =
        .error failure := ht
      refine ⟨rfl, .inl ⟨?_, rfl⟩⟩
      simp only [hb, if_true, ht]
      rfl
    | @unwritten t _ w hb ht hl =>
      have ht : Note.ofLines (expandLines p template.block (e.contextFor d.target) d.world.prompt).1 (some path) =
        .ok t := ht
      refine ⟨rfl, .inr ⟨t, ?_, hl, rfl⟩⟩
      simp only [hb, if_true, ht]
      rfl

/-- A failed insertion leaves the buffer alone, and the note too unless the template's metadata, already taken over,
makes a mapping without written form. So the note is as before exactly when there was nothing to take over. -/
theorem insert_error_frame {e : Engine} {p : Prompter σ} {reference : String} {at_ : Nat} {d d' : Desk σ}
    {failure : Failure} (h : e.insert p reference at_ d = (.error failure, d')) :
    d'.buffer = d.buffer ∧
      ((e.blockNote? p reference d = none ∧ d'.target = d.target) ∨
        ∃ t, e.blockNote? p reference d = some t ∧
          Yaml.write? (d.target.absorb t).frontmatter = none ∧
          failure = .metadata (d.target.absorb t).origin Note.unwritableReason ∧
          d'.target = d.target.absorb t) ∧
      (d'.target = d.target ↔ ∀ t, e.blockNote? p reference d = some t → d.target.absorb t = d.target) := by
  obtain ⟨hbuffer, ⟨hnone, htarget⟩ | ⟨t, hsome, hl, htarget⟩⟩ := insert_error_cases h
  · refine ⟨hbuffer, .inl ⟨hnone, htarget⟩, fun _ t ht => ?_, fun _ => htarget⟩
    rw [hnone] at ht
    cases ht
  · obtain ⟨hwrite, hfailure⟩ := blockLines_eq_error_iff.1 hl
    refine ⟨hbuffer, .inr ⟨t, hsome, hwrite, hfailure, htarget⟩, fun heq t' ht' => ?_, fun hall => ?_⟩
    · rw [hsome] at ht'
      rw [← Option.some.inj ht', ← htarget, heq]
    · rw [htarget, hall t hsome]

/-- A key that is itself a mapping of one entry reads, but has no written form: the insertion fails and the note keeps
the entry. -/
theorem insert_unwritable_changes_note :
    let d := sampleDesk "---\nk:\n  ? \x7ba: b\x7d\n  : c\n---\nnew\n"
      { hasFrontmatter := true, closingLine := some 2, tags := ["x"] } ["---", "tags: [x]", "---", "body"]
    let r := sampleEngine.insert (.silent Unit) "x" 4 d
    r.1 = .error (.metadata ⟨""⟩ Note.unwritableReason) ∧ r.2.buffer = d.buffer ∧ r.2.target ≠ d.target := by
  intro d r
  have hfail : r.1.toOption.isNone ∧ r.2.target.metadata.length = 1 := by decide +kernel
  cases hr : r.1 with
  | ok ins =>
    rw [hr] at hfail
    cases hfail.1
  | error failure =>
    have h : sampleEngine.insert (.silent Unit) "x" 4 d = (.error failure, r.2) := Prod.ext hr rfl
    have hne : r.2.target ≠ d.target := fun he => by
      rw [he] at hfail
      cases hfail.2
    obtain ⟨hbuffer, ⟨-, htarget⟩ | ⟨t, -, -, hfailure, htarget⟩, -⟩ := insert_error_frame h
    · exact absurd htarget hne
    · refine ⟨?_, hbuffer, hne⟩
      have horigin : (r.2.target.origin).text = "" := by decide +kernel
      rw [← htarget] at hfailure
      rw [hfailure, show r.2.target.origin = ⟨""⟩ from congrArg Path.mk horigin]

end Engine
end NoteStencil
