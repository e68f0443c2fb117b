import NoteStencil.Proofs.Commands
import NoteStencil.Proofs.Merging
import NoteStencil.Proofs.SameBody

/-! A template of a block alone, inserted again. The note has all that the template brings, the title that it is
expanded for did not change, and the block that would be written is the one that stands at the top. So nothing
changes where the answers are the same, and the same is asked. -/

namespace NoteStencil

variable {σ : Type} {p : Prompter σ}

/-- Answers depend on the questions only. -/
def Prompter.Steady (p : Prompter σ) : Prop := ∀ text s s', (p.ask text s).1 = (p.ask text s').1

/-- The same was asked since the one log and since the other. -/
def AskedSince (log log' : List String) (s t : σ × List String) : Prop :=
  ∃ asked, s.2 = log ++ asked ∧ t.2 = log' ++ asked

theorem Prompter.Steady.alike (h : p.Steady) (log log' : List String) :
    p.noted.Alike p.noted (AskedSince log log') := by
  refine ⟨fun text s t _ => h text s.1 t.1, fun text s t hst => ?_⟩
  obtain ⟨asked, hs, ht⟩ := hst
  refine ⟨asked ++ [text], ?_, ?_⟩
  · rw [← List.append_assoc, ← hs]
    rfl
  · rw [← List.append_assoc, ← ht]
    rfl

namespace Engine

variable {e : Engine} {reference : String} {at_ : Nat} {d d' : Desk σ} {ins : Insertion} {path : Path}
  {interior : List String} {t : Note} {block body : List String} {old q : Nat}

/-- What a context is made of does not show in a note with a title beyond that title, the identity and the path. -/
theorem contextFor_congr (e : Engine) {n n' : Note} (htitle : n.title.isSome = true) (h : n'.title = n.title)
    (hid : n'.id = n.id) (hpath : n'.path = n.path) : e.contextFor n' = e.contextFor n := by
  obtain ⟨title, htitle⟩ := Option.isSome_iff_exists.1 htitle
  have hname : n.displayName = title := by simp [Note.displayName, htitle]
  have hname' : n'.displayName = title := by simp [Note.displayName, h, htitle]
  unfold contextFor Context.ofNote builtIns
  rw [hname, hname', hid, hpath]

theorem insert_ok_of_block {template : Split} (hread : e.readTemplate reference d.world = .ok (path, template))
    (hb : template.hasBlock = true)
    (ht : Note.ofLines (expandLines p template.block (e.contextFor d.target) d.world.prompt).1 (some path) = .ok t)
    (hwritten : (d.target.absorb t).blockLines = .ok block) :
    ∃ ins d', e.insert p reference at_ d = (.ok ins, d') := by
  have hnote : e.blockNote? p reference d = some t := by
    simp only [blockNote?, hread, hb, if_true, ht]
    rfl
  cases h : e.insert p reference at_ d with
  | mk r d' =>
    cases r with
    | ok ins => exact ⟨ins, d', rfl⟩
    | error failure =>
      obtain ⟨-, ⟨hnone, -⟩ | ⟨t', ht', hfails, -⟩⟩ := insert_error_cases h
      · cases hnote.symm.trans hnone
      · cases hnote.symm.trans ht'
        cases hwritten.symm.trans hfails

/-! ### A second landing -/

namespace LandsMerged

variable {d'' : Desk σ} {ins' : Insertion} {q' : Nat} {block' : List String}

theorem blockLength_eq (h : LandsMerged d d' ins t old q block body) :
    blockLength d'.target d'.buffer = block.length := by
  obtain ⟨interior, hblock, -⟩ := blockLines_eq_ok h.written
  have hlength : 0 < block.length := by
    rw [hblock]
    simp
  have hcount : block.length ≤ d'.buffer.count := by
    unfold Buffer.count
    rw [h.lines]
    simp only [List.length_append]
    omega
  rw [Engine.blockLength_eq, h.target]
  simp only
  omega

theorem absorb_again (ht : t.Sound) (h : LandsMerged d d' ins t old q block body) :
    d'.target.absorb t = d'.target := by
  apply Note.Has.absorb_eq
  have hhas := ht.has_absorb d.target
  rw [h.target]
  exact ⟨hhas.tags, hhas.aliases, hhas.metadata⟩

theorem contextFor_eq (htitle : d.target.title.isSome = true) (h : LandsMerged d d' ins t old q block body) :
    e.contextFor d'.target = e.contextFor d.target := by
  apply contextFor_congr e htitle <;> rw [h.target, Note.absorb_eq]

/-- The same template without body, over the block that it has just made. -/
theorem again (ht : t.Sound) (h : LandsMerged d d' ins t old q block body)
    (h' : LandsMerged d' d'' ins' t (blockLength d'.target d'.buffer) q' block' []) :
    d''.buffer.lines = d'.buffer.lines ∧ d''.target = d'.target := by
  have htarget := h'.target
  rw [h.absorb_again ht] at htarget
  -- where the block ends does not show in the block
  have hblock : block' = block := by
    have hwritten := h'.written
    rw [htarget] at hwritten
    exact Except.ok.inj (hwritten.symm.trans h.written)
  subst hblock
  constructor
  · rw [h'.lines, h.blockLength_eq, h.lines]
    simp only [List.append_assoc, List.drop_left, List.nil_append, List.take_append_drop]
  · rw [htarget, h.target]

end LandsMerged

theorem lands_of_block {lines : List String} (h : e.insert p reference at_ d = (.ok ins, d'))
    (hreads : e.Reads reference d.world.files path lines) (hd : Divides lines ⟨lines, [], true⟩) :
    ∃ t block,
      Note.ofLines (expandLines p lines (e.contextFor d.target) d.world.prompt).1 (some path) = .ok t ∧
      LandsMerged d d' ins t (blockLength d.target d.buffer)
        (max (min at_ d.buffer.count) (blockLength d.target d.buffer) - blockLength d.target d.buffer) block [] := by
  obtain ⟨path', lines', hpath, hlines, -, hland⟩ := lands_of_insert h
  obtain ⟨rfl, rfl⟩ := hreads.unique ⟨hpath, hlines⟩
  rcases hland with ⟨hfirst, -⟩ | ⟨interior, rest, t, block, rfl, hclear, ht, hland⟩
  · cases hd.unique (.plain hfirst)
  · obtain ⟨hlines, hrest, -⟩ := Split.mk.inj (hd.unique (.block hclear))
    subst hrest
    exact ⟨t, block, ht, hland⟩

/-- A template of a block alone, inserted a second time with a note that has a title, by a prompter whose answers depend
on the questions only: it succeeds wherever it is put, asks what it asked before, and leaves all lines and the note as
they are. -/
theorem insert_twice {interior : List String} {d d' : Desk (σ × List String)} (hsteady : p.Steady)
    (htitle : d.target.title.isSome = true)
    (hreads : e.Reads reference d.world.files path (delimiter :: interior ++ [delimiter]))
    (hclear : delimiter ∉ interior) (h : e.insert p.noted reference at_ d = (.ok ins, d')) (again : Nat) :
    ∃ ins' d'' asked, e.insert p.noted reference again d' = (.ok ins', d'') ∧
      d''.buffer.lines = d'.buffer.lines ∧ d''.target = d'.target ∧
      d'.world.prompt.2 = d.world.prompt.2 ++ asked ∧ d''.world.prompt.2 = d'.world.prompt.2 ++ asked := by
  have hd : Divides (delimiter :: interior ++ [delimiter]) ⟨delimiter :: interior ++ [delimiter], [], true⟩ :=
    .block hclear
  obtain ⟨t, block, ht, hland⟩ := lands_of_block h hreads hd
  have hsound : t.Sound := Note.sound_of_ofLines ht
  have hfiles : d'.world.files = d.world.files := by
    have hfiles := insert_files e p.noted reference at_ d
    rwa [h] at hfiles
  have hreads' : e.Reads reference d'.world.files path (delimiter :: interior ++ [delimiter]) := hfiles ▸ hreads
  -- the second expansion starts from an equal context, and from a state in which the same is answered
  have hcontext : e.contextFor d'.target = e.contextFor d.target := hland.contextFor_eq htitle
  have hstart : AskedSince d.world.prompt.2 d'.world.prompt.2 d.world.prompt d'.world.prompt := ⟨[], by simp, by simp⟩
  have hmatches := matches_expandLines (hsteady.alike d.world.prompt.2 d'.world.prompt.2)
    (delimiter :: interior ++ [delimiter]) (e.contextFor d.target) hstart
  have ht' : Note.ofLines (expandLines p.noted (delimiter :: interior ++ [delimiter]) (e.contextFor d'.target)
      d'.world.prompt).1 (some path) = .ok t := by
    rw [hcontext, ← hmatches.result]
    exact ht
  have hread : e.readTemplate reference d'.world = .ok (path, ⟨delimiter :: interior ++ [delimiter], [], true⟩) :=
    readTemplate_eq_ok_iff.2 ⟨hreads'.resolved, _, hreads'.source, hd⟩
  have hwritten : (d'.target.absorb t).blockLines = .ok block := by
    rw [hland.absorb_again hsound]
    exact hland.written
  obtain ⟨ins', d'', h'⟩ : ∃ ins' d'', e.insert p.noted reference again d' = (.ok ins', d'') :=
    insert_ok_of_block hread rfl ht' hwritten
  obtain ⟨t', block', ht'', hland'⟩ := lands_of_block h' hreads' hd
  obtain rfl : t = t' := Except.ok.inj (ht'.symm.trans ht'')
  obtain ⟨hlines, htarget⟩ := hland.again hsound hland'
  obtain ⟨asked, hasked, hasked'⟩ := hmatches.state
  refine ⟨ins', d'', asked, h', hlines, htarget, ?_, ?_⟩
  · rw [prompt_of_insert h hreads]
    exact hasked
  · rw [prompt_of_insert h' hreads', hcontext]
    exact hasked'

/-- A block that asks for a tag, put inside the old block first and at the end then. -/
theorem insert_twice_asked :
    let fs : FileSystem := { entries := [(["t"], .directory), (["t", "x.md"], .file
      (encodeUtf8 "---\ntags: [\x7b\x7bb\x7d\x7d, \x7b\x7btitle\x7d\x7d]\n---\n"))] }
    let p : Prompter Nat := ⟨fun text k => (if text = question "b" then some "c" else none, k + 1)⟩
    let d : Desk (Nat × List String) := ⟨{ title := some "T", hasFrontmatter := true, closingLine := some 2 },
      ⟨["---", "k: v", "---", "old"], 0⟩, ⟨fs, (0, []), []⟩⟩
    let d' := (sampleEngine.insert p.noted "x" 1 d).2
    ∃ ins' d'', sampleEngine.insert p.noted "x" 9 d' = (.ok ins', d'') ∧
      d''.buffer.lines = d'.buffer.lines ∧ d''.target = d'.target ∧
      d'.buffer.lines = ["---", "tags:", "- T", "- c", "---", "old"] ∧
      d'.world.prompt.2 = [question "b"] ∧ d''.world.prompt.2 = [question "b", question "b"] := by
  intro fs p d d'
  let interior := ["tags: [\x7b\x7bb\x7d\x7d, \x7b\x7btitle\x7d\x7d]"]
  have hsteady : p.Steady := fun text s s' => rfl
  have hresolve : Template.resolve fs sampleEngine.directory "x" = .ok ⟨"/t/x.md"⟩ :=
    eq_ok_of_toOption (by decide +kernel)
  have hreads : sampleEngine.Reads "x" fs ⟨"/t/x.md"⟩ (delimiter :: interior ++ [delimiter]) :=
    reads_iff.2 ⟨hresolve, by decide +kernel⟩
  have h : sampleEngine.insert p.noted "x" 1 d = (.ok ⟨true, 5, 5⟩, d') := pair_eq_ok (by decide +kernel)
  have hlog : d'.world.prompt.2 = [question "b"] := by decide +kernel
  obtain ⟨ins', d'', asked, h', hlines, htarget, hasked, hagain⟩ :=
    insert_twice hsteady rfl hreads (by decide) h 9
  obtain rfl : [question "b"] = asked := hlog.symm.trans hasked
  rw [hlog] at hagain
  exact ⟨ins', d'', h', hlines, htarget, by decide +kernel, hlog, hagain⟩

end Engine
end NoteStencil
