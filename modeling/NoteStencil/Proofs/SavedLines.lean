import NoteStencil.Proofs.Persistence
import NoteStencil.Proofs.Streaming

/-! What becomes of lines that are saved. A buffer and a note close every line with a line feed, so lines that can stand in a
file come back from it as they were, whichever of both wrote it. But a note without lines is saved as one that is empty. -/

namespace NoteStencil

open FileSystem

variable {fs fs' : FileSystem} {p : Path} {lines : List String} {n : Note} {b : Buffer}

/-! ### Files that are made -/

theorem storeText_ok_iff (text : String) :
    (∃ fs', fs.storeText p text = (.ok (), fs')) ↔ (fs.landing? p).isSome = true := by
  cases hq : fs.landing? p with
  | none =>
    obtain ⟨fault, -, hstore⟩ := storeText_none text hq
    rw [hstore]
    simp
  | some q =>
    rw [storeText_some text hq]
    simp

theorem save_ok_iff (h : n.toLines = .ok lines) :
    (∃ fs', n.save fs p = (.ok (), fs')) ↔ (fs.destination? p).isSome = true := by
  unfold Note.save
  cases hparent : fs.ensureParent p with
  | mk result made =>
    cases result with
    | error failure => simp [destination?, hparent]
    | ok =>
      rw [destination?_eq hparent, h]
      exact storeText_ok_iff (Note.fileText lines)

theorem read_of_bufferSave (h : b.save fs p = (.ok (), fs')) : fs'.read p = .ok (encodeUtf8 (closeLines b.lines)) := by
  rw [← Buffer.text_eq]
  exact read_storeText h

theorem read_of_noteSave (hlines : n.toLines = .ok lines) (h : n.save fs p = (.ok (), fs')) :
    fs'.read p = .ok (encodeUtf8 (Note.fileText lines)) := by
  obtain ⟨lines', hlines', hread⟩ := Note.save_eq_ok h
  obtain rfl : lines = lines' := Except.ok.inj (hlines.symm.trans hlines')
  exact hread

/-! ### Files that are read -/

theorem WholeLines.unique {lines' : List String} (h : WholeLines fs p lines) (h' : WholeLines fs p lines') :
    lines = lines' :=
  congrArg Buffer.lines (Except.ok.inj (h.load.symm.trans h'.load))

theorem wholeLines_of_text {text : String} (h : fs.read p = .ok (encodeUtf8 text)) :
    WholeLines fs p (textLines text) :=
  wholeLines_of_read h (octetLines_encodeUtf8 text)

theorem fileText_eq_iff : Note.fileText lines = closeLines lines ↔ lines ≠ [] := by
  constructor
  · rintro h rfl
    exact absurd h (by decide)
  · intro h
    exact joinLines_closed h

/-- Lines that can stand in a file come back when a buffer or a note with these lines is saved, unless there are none: what
a buffer writes then is empty, but what a note writes is an empty line. -/
theorem saved_lines_return (h : ∀ line ∈ lines, Whole line) (fs : FileSystem) (p : Path) :
    (∀ b : Buffer, b.lines = lines →
      ((∃ fs', b.save fs p = (.ok (), fs')) ↔ (fs.landing? p).isSome = true) ∧
      ∀ fs', b.save fs p = (.ok (), fs') →
        fs'.read p = .ok (encodeUtf8 (closeLines lines)) ∧ WholeLines fs' p lines) ∧
    ∀ n : Note, n.toLines = .ok lines →
      ((∃ fs', n.save fs p = (.ok (), fs')) ↔ (fs.destination? p).isSome = true) ∧
      ∀ fs', n.save fs p = (.ok (), fs') →
        (fs'.read p = .ok (encodeUtf8 (closeLines lines)) ↔ lines ≠ []) ∧
        (WholeLines fs' p lines ↔ lines ≠ []) ∧
        (lines = [] → WholeLines fs' p [""]) := by
  refine ⟨?_, ?_⟩
  · rintro b rfl
    refine ⟨storeText_ok_iff b.text, ?_⟩
    intro fs' hsave
    have hread := read_of_bufferSave hsave
    have hwhole := wholeLines_of_text hread
    rw [textLines_whole h] at hwhole
    exact ⟨hread, hwhole⟩
  · intro n hlines
    refine ⟨save_ok_iff hlines, ?_⟩
    intro fs' hsave
    have hread := read_of_noteSave hlines hsave
    have hwhole := wholeLines_of_text hread
    have hblank : lines = [] → WholeLines fs' p [""] := by
      rintro rfl
      exact hwhole
    refine ⟨?_, ?_, hblank⟩
    · rw [hread, Except.ok.injEq, encodeUtf8_inj]
      exact fileText_eq_iff
    · constructor
      · intro hall hnil
        have hlines := hall.unique (hblank hnil)
        rw [hnil] at hlines
        cases hlines
      · intro hne
        rwa [fileText_eq_iff.2 hne, textLines_whole h] at hwhole

/-- A note of nothing is read as a note whose body is an empty line. -/
theorem saved_blank_note :
    ∃ fs', ({} : Note).save {} ⟨"/n.md"⟩ = (.ok (), fs') ∧ WholeLines fs' ⟨"/n.md"⟩ [""] ∧
      ¬ WholeLines fs' ⟨"/n.md"⟩ [] := by
  have hlines : ({} : Note).toLines = .ok [] := rfl
  have hnone : ∀ line ∈ ([] : List String), Whole line := by
    intro line hline
    cases hline
  obtain ⟨-, hnote⟩ := saved_lines_return hnone {} ⟨"/n.md"⟩
  obtain ⟨hsaves, hreads⟩ := hnote {} hlines
  obtain ⟨fs', hsave⟩ := hsaves.2 (by decide +kernel)
  obtain ⟨-, hwhole, hblank⟩ := hreads fs' hsave
  exact ⟨fs', hsave, hblank rfl, fun hall => hwhole.1 hall rfl⟩

end NoteStencil
