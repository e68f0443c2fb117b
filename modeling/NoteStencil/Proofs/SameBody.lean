import NoteStencil.Proofs.Asking
import NoteStencil.Proofs.Described
import NoteStencil.Proofs.Filling
import NoteStencil.Proofs.LineFeeds

/-! One template by two ways. A clone writes the expanded lines to a file and reads it, an insertion expands the block
and the body one after the other and cuts the body at its breaks. With prompters that answer alike both ask the same,
and where the expansion divides as the template does, they give the same body. -/

namespace NoteStencil

variable {σ τ : Type} {p : Prompter σ} {q : Prompter τ} {r : σ → τ → Prop} {s : σ} {t : τ}

/-! ### Prompters that answer alike -/

/-- In related states each question has the same answer, and the states stay related. -/
structure Prompter.Alike (p : Prompter σ) (q : Prompter τ) (r : σ → τ → Prop) : Prop where
  answer : ∀ text s t, r s t → (p.ask text s).1 = (q.ask text t).1
  state : ∀ text s t, r s t → r (p.ask text s).2 (q.ask text t).2

/-- The same result and the same context, in related states. -/
structure Matches {α : Type} (r : σ → τ → Prop) (x : α × Context × σ) (y : α × Context × τ) : Prop where
  result : x.1 = y.1
  context : x.2.1 = y.2.1
  state : r x.2.2 y.2.2

theorem Prompter.alike_self (p : Prompter σ) : p.Alike p Eq := by
  refine ⟨fun text s t hst => ?_, fun text s t hst => ?_⟩
  · rw [hst]
  · rw [hst]

/-- Related states, and the same questions noted. -/
def Noted (r : σ → τ → Prop) (s : σ × List String) (t : τ × List String) : Prop := r s.1 t.1 ∧ s.2 = t.2

theorem Prompter.Alike.noted (h : p.Alike q r) : p.noted.Alike q.noted (Noted r) := by
  refine ⟨fun text s t hst => h.answer text s.1 t.1 hst.1, fun text s t hst => ⟨h.state text s.1 t.1 hst.1, ?_⟩⟩
  exact congrArg (· ++ [text]) hst.2

/-- Noting the questions changes nothing else. -/
theorem Prompter.noted_alike (p : Prompter σ) : p.noted.Alike p fun s t => s.1 = t := by
  refine ⟨fun text s t hst => ?_, fun text s t hst => ?_⟩
  · rw [← hst]
    rfl
  · rw [← hst]
    rfl

theorem matches_askFor (h : p.Alike q r) (name : String) (c : Context) (hst : r s t) :
    Matches r (askFor p name c s) (askFor q name c t) := by
  have hanswer := h.answer (question name) s t hst
  have hstate := h.state (question name) s t hst
  unfold askFor
  cases hp : p.ask (question name) s with
  | mk answer s' =>
    cases hq : q.ask (question name) t with
    | mk answer' t' =>
      rw [hp, hq] at hanswer hstate
      obtain rfl : answer = answer' := hanswer
      cases answer with
      | none => exact ⟨rfl, rfl, hstate⟩
      | some text =>
        by_cases htext : text = ""
        · simp only [if_pos htext]
          exact ⟨rfl, rfl, hstate⟩
        · simp only [if_neg htext]
          exact ⟨rfl, rfl, hstate⟩

theorem matches_valueFor (h : p.Alike q r) (raw : String) (c : Context) (hst : r s t) :
    Matches r (valueFor p raw c s) (valueFor q raw c t) := by
  unfold valueFor
  cases c.resolve raw with
  | mk value c' =>
    cases value with
    | some value => exact ⟨rfl, rfl, hst⟩
    | none =>
      simp only
      split
      · exact ⟨rfl, rfl, hst⟩
      · cases c.answer (trim raw) with
        | some value => exact ⟨rfl, rfl, hst⟩
        | none => exact matches_askFor h (trim raw) c hst

theorem matches_expandPieces (h : p.Alike q r) (pieces : List Piece) (c : Context) (hst : r s t) :
    Matches r (expandPieces p pieces c s) (expandPieces q pieces c t) := by
  induction pieces generalizing c s t with
  | nil => exact ⟨rfl, rfl, hst⟩
  | cons piece rest ih =>
    cases piece with
    | text ch =>
      have hrest := ih c hst
      exact ⟨congrArg (ch :: ·) hrest.result, hrest.context, hrest.state⟩
    | token raw =>
      have hvalue := matches_valueFor h raw c hst
      have hrest := ih (valueFor p raw c s).2.1 hvalue.state
      simp only [expandPieces, ← hvalue.result, ← hvalue.context]
      exact ⟨congrArg _ hrest.result, hrest.context, hrest.state⟩

theorem matches_expand (h : p.Alike q r) (text : String) (c : Context) (hst : r s t) :
    Matches r (expand p text c s) (expand q text c t) := by
  have hpieces := matches_expandPieces h (scan text.toList) c hst
  exact ⟨congrArg String.ofList hpieces.result, hpieces.context, hpieces.state⟩

/-- Lines expand to the same under both. -/
theorem matches_expandLines (h : p.Alike q r) (lines : List String) (c : Context) (hst : r s t) :
    Matches r (expandLines p lines c s) (expandLines q lines c t) := by
  induction lines generalizing c s t with
  | nil => exact ⟨rfl, rfl, hst⟩
  | cons line rest ih =>
    have hline := matches_expand h line c hst
    have hrest := ih (expand p line c s).2.1 hline.state
    simp only [expandLines, ← hline.result, ← hline.context]
    exact ⟨congrArg _ hrest.result, hrest.context, hrest.state⟩

/-! ### Blocks -/

variable {lines : List String} {c : Context}

theorem expand_delimiter (p : Prompter σ) (c : Context) (s : σ) : expand p delimiter c s = (delimiter, c, s) := by
  have hscan : scan delimiter.toList = [.text '-', .text '-', .text '-'] := by decide +kernel
  rw [expand, hscan]
  rfl

theorem expandLines_delimiter (p : Prompter σ) (lines : List String) (c : Context) (s : σ) :
    expandLines p (delimiter :: lines) c s =
      (delimiter :: (expandLines p lines c s).1, (expandLines p lines c s).2) := by
  simp only [expandLines, expand_delimiter]

/-- The delimiters of a block stand around its expanded interior. -/
theorem expandLines_block (p : Prompter σ) (interior rest : List String) (c : Context) (s : σ) :
    (expandLines p (delimiter :: interior ++ delimiter :: rest) c s).1 =
      delimiter :: (expandLines p interior c s).1 ++ delimiter ::
        (expandLines p rest (expandLines p interior c s).2.1 (expandLines p interior c s).2.2).1 := by
  simp only [List.cons_append, expandLines_delimiter, expandLines_append]

/-! ### Divisions -/

/-- The expanded lines divide where the template does. -/
inductive Aligned (lines outs : List String) : Prop
  | plain (closed : lines.head? ≠ some delimiter) (stays : (textLines (closeLines outs)).head? ≠ some delimiter)
  | block {interior rest : List String} (opens : lines = delimiter :: interior ++ delimiter :: rest)
      (clear : delimiter ∉ interior)
      (stays : ∀ out ∈ (outs.drop 1).take interior.length, Feedless out ∧ out ≠ delimiter)

namespace Engine

/-- The file of an expanded template has for its body what an insertion makes of the template's. -/
theorem divides_expanded (h : Aligned lines (expandLines p lines c s).1)
    (hinside : ∀ out ∈ (expandLines p lines c s).1, FeedsInside out) :
    ∃ template block, Divides lines template ∧
      Divides (textLines (closeLines (expandLines p lines c s).1))
        ⟨block, bodyLines (expandLines p template.body (expandLines p template.block c s).2.1
          (expandLines p template.block c s).2.2).1, template.hasBlock⟩ := by
  rw [textLines_closeLines_breaks hinside]
  cases h with
  | plain closed stays =>
    rw [textLines_closeLines_breaks hinside] at stays
    exact ⟨{ body := lines }, [], .plain closed, .plain stays⟩
  | @block interior rest opens clear stays =>
    subst opens
    have hblock : (expandLines p (delimiter :: interior ++ [delimiter]) c s).2 = (expandLines p interior c s).2 := by
      simp only [List.cons_append, expandLines_delimiter, expandLines_append, expandLines, expand_delimiter]
    rw [expandLines_block] at hinside stays
    have hinterior : ∀ out ∈ (expandLines p interior c s).1, Feedless out ∧ out ≠ delimiter := by
      intro out hout
      refine stays out ?_
      simpa [List.take_append, expandLines_length] using hout
    -- each line of the interior stays one line and no delimiter, so the block still ends where it did
    have hclear : delimiter ∉ (expandLines p interior c s).1 := fun hmem => (hinterior _ hmem).2 rfl
    have hdelimiter : splitLines delimiter = [delimiter] := by decide
    have hkept : (expandLines p interior c s).1.flatMap splitLines = (expandLines p interior c s).1 := by
      refine flatMap_splitLines fun out hout => ⟨hinside out ?_, (hinterior out hout).1⟩
      simp [hout]
    refine ⟨_, delimiter :: (expandLines p interior c s).1 ++ [delimiter], .block clear, ?_⟩
    rw [hblock, expandLines_block, List.flatMap_append, List.flatMap_cons, List.flatMap_cons, hdelimiter, hkept]
    exact .block hclear

/-! ### Insertions -/

variable {e : Engine} {reference : String} {at_ : Nat} {d d' : Desk σ} {ins : Insertion} {path : Path}

/-- What an insertion has put into the buffer: the body, expanded with the context that the block left. -/
theorem inserted_of_insert {template : Split} (h : e.insert p reference at_ d = (.ok ins, d'))
    (hreads : e.Reads reference d.world.files path lines) (hd : Divides lines template) :
    d'.buffer.slice ins.start ins.stop =
      bodyLines (expandLines p template.body
        (expandLines p template.block (e.contextFor d.target) d.world.prompt).2.1
        (expandLines p template.block (e.contextFor d.target) d.world.prompt).2.2).1 := by
  obtain ⟨path', lines', hpath, hlines, -, hland⟩ := lands_of_insert h
  obtain ⟨rfl, rfl⟩ := hreads.unique ⟨hpath, hlines⟩
  rcases hland with ⟨hfirst, hland⟩ | ⟨interior, rest, t, block, rfl, hclear, -, hland⟩
  · obtain rfl := hd.unique (.plain hfirst)
    exact hland.inserted_eq (Nat.min_le_right _ _)
  · obtain rfl := hd.unique (.block hclear)
    exact hland.inserted_eq

/-- An insertion asks what its template's lines ask in their order. -/
theorem prompt_of_insert (h : e.insert p reference at_ d = (.ok ins, d'))
    (hreads : e.Reads reference d.world.files path lines) :
    d'.world.prompt = (expandLines p lines (e.contextFor d.target) d.world.prompt).2.2 := by
  rw [insert_eq] at h
  cases hr : e.readTemplate reference d.world with
  | error failure => simp [hr] at h
  | ok found =>
    obtain ⟨path', template⟩ := found
    obtain ⟨hpath, lines', hlines, hd⟩ := readTemplate_eq_ok_iff.1 hr
    obtain ⟨rfl, rfl⟩ := hreads.unique ⟨hpath, hlines⟩
    simp only [hr] at h
    have hcourse := insertSplit_course e p path template (min at_ d.buffer.count) (d.looked e reference)
    rw [h] at hcourse
    rw [hd.lines_eq, expandLines_append]
    cases hcourse with
    | plain hb =>
      cases hd with
      | plain _ => rfl
      | block _ => cases hb
    | @merged t block w hb ht hl hprompt =>
      rw [insertBody_eq]
      have hblocked : ((d.looked e reference).blocked t block w).world.prompt = _ := hprompt
      simp only [World.expanded, hblocked]
      rfl

/-! ### Both ways -/

variable {destination : Path} {n note : Note} {w w' : World σ} {fs fs' : FileSystem}

/-- A destination where there is no file is not the template. -/
theorem Reads.other_of_fresh (h : e.Reads reference fs path lines)
    (hfresh : ∀ q, fs.destination? destination = some q → fs.node? q = none) :
    fs.destination? destination ≠ fs.place? path := by
  obtain ⟨q, octets, hplace, hq⟩ := template_file h.resolved
  intro he
  rw [hfresh q (he.trans hplace)] at hq
  cases hq

/-- A clone that gives a note has asked what its template's lines ask in their order, and its body is the one that the
written lines divide into. -/
theorem body_of_clone {t : Split} (h : e.clone p reference destination n w = (.ok note, w'))
    (hreads : e.Reads reference w.files path lines) (hother : w.files.destination? destination ≠ w.files.place? path)
    (hd : Divides (textLines (closeLines (expandLines p lines (e.contextFor n) w.prompt).1)) t) :
    note.body = t.body ∧ w'.prompt = (expandLines p lines (e.contextFor n) w.prompt).2.2 := by
  have hothers : ∀ template, Template.resolve w.files e.directory reference = .ok template →
      w.files.destination? destination ≠ w.files.place? template := by
    intro template htemplate
    rwa [← Except.ok.inj (hreads.resolved.symm.trans htemplate)]
  obtain ⟨path', lines', n', hreads', hfilled, hn', rfl⟩ := reads_of_clone h hothers
  obtain ⟨rfl, rfl⟩ := hreads.unique hreads'
  obtain ⟨t', m, hd', -, rfl⟩ := Note.ofLines_eq_ok_iff.1 hn'
  obtain rfl := hd.unique hd'
  exact ⟨by rw [inherit_eq, Note.ofSplit_eq], hfilled.prompt⟩

/-- One template cloned from a note, to another file than itself, and inserted with that note as the target, by
prompters that answer alike: the new note's body is what now stands in the buffer, and the same was asked in the same
order. -/
theorem clone_insert_same_body {b : Buffer} {ws ws' : List String} {path' : Path} {w' : World (σ × List String)}
    {d' : Desk (τ × List String)} (halike : p.Alike q r) (hstart : r s t)
    (hclone : e.clone p.noted reference destination n ⟨fs, (s, []), ws⟩ = (.ok note, w'))
    (hinsert : e.insert q.noted reference at_ ⟨n, b, ⟨fs', (t, []), ws'⟩⟩ = (.ok ins, d'))
    (hreads : e.Reads reference fs path lines) (hreads' : e.Reads reference fs' path' lines)
    (hother : fs.destination? destination ≠ fs.place? path)
    (hinside : ∀ out ∈ (expandLines p lines (e.contextFor n) s).1, FeedsInside out)
    (haligned : Aligned lines (expandLines p lines (e.contextFor n) s).1) :
    note.body = d'.buffer.slice ins.start ins.stop ∧ w'.prompt.2 = d'.world.prompt.2 := by
  have hresult : (expandLines p.noted lines (e.contextFor n) (s, [])).1 = (expandLines p lines (e.contextFor n) s).1 :=
    (matches_expandLines p.noted_alike lines (e.contextFor n) rfl).result
  rw [← hresult] at hinside haligned
  obtain ⟨template, block, htemplate, hwritten⟩ := divides_expanded haligned hinside
  obtain ⟨hbody, hprompt⟩ := body_of_clone hclone hreads hother hwritten
  have hplaced := inserted_of_insert hinsert hreads' htemplate
  have hprompt' := prompt_of_insert hinsert hreads'
  -- both are runs over the same lines, so it is enough to compare them block by block and body by body
  have hrelated : Noted r (s, []) (t, []) := ⟨hstart, rfl⟩
  have hblocks := matches_expandLines halike.noted template.block (e.contextFor n) hrelated
  have hbodies := matches_expandLines halike.noted template.body
    (expandLines p.noted template.block (e.contextFor n) (s, [])).2.1 hblocks.state
  have hall := matches_expandLines halike.noted lines (e.contextFor n) hrelated
  rw [hblocks.context] at hbodies
  constructor
  · rw [hbody, hplaced, ← hbodies.result, hblocks.context]
  · rw [hprompt, hprompt']
    exact hall.state.2

/-- A template with a block and a name in both parts, cloned below a directory that has to be made, and inserted inside
the block of a buffer. -/
theorem clone_insert_numbered :
    let fs : FileSystem := { entries := [(["t"], .directory), (["t", "x.md"], .file
      (encodeUtf8 "---\ntags: [\x7b\x7bb\x7d\x7d]\n---\n\x7b\x7ba\x7d\x7d \x7b\x7bb\x7d\x7d\nend\n"))] }
    let p : Prompter Nat := ⟨fun _ k => (some (toString k), k + 1)⟩
    let n : Note := { id := some "a", hasFrontmatter := true, closingLine := some 2 }
    let cloned := sampleEngine.clone p.noted "x" ⟨"/n/new.md"⟩ n ⟨fs, (0, []), []⟩
    let inserted := sampleEngine.insert p.noted "x" 1 ⟨n, ⟨["---", "id: a", "---", "old"], 0⟩, ⟨fs, (0, []), []⟩⟩
    ∃ note ins, cloned.1 = .ok note ∧ inserted.1 = .ok ins ∧
      note.body = inserted.2.buffer.slice ins.start ins.stop ∧ note.body = ["1 0", "end"] ∧
      cloned.2.prompt.2 = inserted.2.world.prompt.2 ∧ cloned.2.prompt.2 = [question "b", question "a"] := by
  intro fs p n cloned inserted
  let lines := ["---", "tags: [\x7b\x7bb\x7d\x7d]", "---", "\x7b\x7ba\x7d\x7d \x7b\x7bb\x7d\x7d", "end"]
  have hmade : cloned.1.toOption.isSome = true := by decide +kernel
  obtain ⟨note, hnote⟩ := Option.isSome_iff_exists.1 hmade
  have hclone : cloned = (.ok note, cloned.2) := pair_eq_ok hnote
  have hinsert : inserted = (.ok ⟨true, 5, 7⟩, inserted.2) := pair_eq_ok (by decide +kernel)
  have hresolve : Template.resolve fs sampleEngine.directory "x" = .ok ⟨"/t/x.md"⟩ :=
    eq_ok_of_toOption (by decide +kernel)
  have hreads : sampleEngine.Reads "x" fs ⟨"/t/x.md"⟩ lines := reads_iff.2 ⟨hresolve, by decide +kernel⟩
  have hother : fs.destination? ⟨"/n/new.md"⟩ ≠ fs.place? ⟨"/t/x.md"⟩ := by
    refine hreads.other_of_fresh fun q hq => ?_
    have hplace : fs.destination? ⟨"/n/new.md"⟩ = some ["n", "new.md"] := by decide +kernel
    rw [← Option.some.inj (hplace.symm.trans hq)]
    rfl
  have hout : (expandLines p lines (sampleEngine.contextFor n) 0).1 = ["---", "tags: [0]", "---", "1 0", "end"] := by
    decide +kernel
  have hinside : ∀ out ∈ (expandLines p lines (sampleEngine.contextFor n) 0).1, FeedsInside out := by
    have hclear : ∀ out ∈ (expandLines p lines (sampleEngine.contextFor n) 0).1,
        '\r' ∉ out.toList ∧ out.toList.getLast? ≠ some '\n' := by
      rw [hout]
      decide
    exact fun out hmem => ⟨(hclear out hmem).1, (hclear out hmem).2⟩
  have haligned : Aligned lines (expandLines p lines (sampleEngine.contextFor n) 0).1 := by
    rw [hout]
    have hopens : lines = delimiter :: ["tags: [\x7b\x7bb\x7d\x7d]"] ++ delimiter :: lines.drop 3 := by decide
    refine .block hopens (by decide) ?_
    unfold Feedless
    decide
  obtain ⟨hbody, hasked⟩ :=
    clone_insert_same_body p.alike_self rfl hclone hinsert hreads hreads hother hinside haligned
  have hslice : inserted.2.buffer.slice 5 7 = ["1 0", "end"] := by decide +kernel
  have hlog : inserted.2.world.prompt.2 = [question "b", question "a"] := by decide +kernel
  exact ⟨note, _, congrArg Prod.fst hclone, congrArg Prod.fst hinsert, hbody, hbody.trans hslice, hasked,
    hasked.trans hlog⟩

end Engine
end NoteStencil
