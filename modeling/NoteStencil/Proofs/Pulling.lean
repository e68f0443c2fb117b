import NoteStencil.Proofs.Leading

/-! What calls on one cursor pull out of its source. Whatever the calls and however they end, the items they pull are the
source from its front on, each item once; a call that succeeds gives back just what it pulled, and one that fails
has lost nothing else. -/

namespace NoteStencil

/-- The lines among the items of a source. -/
def linesAmong (items : LineSource) : List String := items.filterMap Except.toOption

theorem linesAmong_append (xs ys : LineSource) : linesAmong (xs ++ ys) = linesAmong xs ++ linesAmong ys :=
  List.filterMap_append

theorem linesAmong_map_ok (lines : List String) : linesAmong (lines.map .ok) = lines := by
  simp [linesAmong, List.filterMap_map, Function.comp_def, Except.toOption]

theorem linesAmong_stopped (lines : List String) (fault : Fault) :
    linesAmong (lines.map .ok ++ [.error fault]) = lines := by
  rw [linesAmong_append, linesAmong_map_ok]
  exact List.append_nil lines

/-- From one cursor to a later one on the same source, and what was pulled on the way. -/
structure Pulls (c : LineCursor) (pulled : LineSource) (c' : LineCursor) : Prop where
  rest : c.rest = pulled ++ c'.rest
  origin : c'.origin = c.origin
  consumed : c'.consumed = c.consumed + (linesAmong pulled).length

theorem Pulls.refl (c : LineCursor) : Pulls c [] c := ⟨rfl, rfl, rfl⟩

theorem Pulls.trans {c c' c'' : LineCursor} {xs ys : LineSource} (h : Pulls c xs c') (h' : Pulls c' ys c'') :
    Pulls c (xs ++ ys) c'' := by
  refine ⟨?_, h'.origin.trans h.origin, ?_⟩
  · rw [h.rest, h'.rest, List.append_assoc]
  · rw [h'.consumed, h.consumed, linesAmong_append, List.length_append, Nat.add_assoc]

/-- What was pulled is what the source no longer holds. -/
theorem Pulls.pulled_eq {c c' : LineCursor} {pulled : LineSource} (h : Pulls c pulled c') :
    c.rest.take (c.rest.length - c'.rest.length) = pulled := by
  rw [h.rest, List.length_append, Nat.add_sub_cancel, List.take_left]

namespace LineCursor

/-! ### Single lines -/

inductive Gives (origin : Path) : LineSource → LineSource → Except Failure (Option String) → Prop
  | ended : Gives origin [] [] (.ok none)
  | line (text : String) (rest : LineSource) : Gives origin [.ok text] rest (.ok (some text))
  | refused (fault : Fault) (rest : LineSource) : Gives origin [.error fault] rest (.error (.unreadable origin fault))

theorem gives_next (c : LineCursor) : ∃ pulled, Pulls c pulled c.next.2 ∧ Gives c.origin pulled c.next.2.rest c.next.1 := by
  obtain ⟨source, origin, n⟩ := c
  match source with
  | [] => exact ⟨[], .refl _, .ended⟩
  | .ok text :: rest => exact ⟨[.ok text], ⟨rfl, rfl, rfl⟩, .line text rest⟩
  | .error fault :: rest => exact ⟨[.error fault], ⟨rfl, rfl, rfl⟩, .refused fault rest⟩

/-! ### Blocks -/

/-- What taking the start of a document pulls, what it leaves, and what it finds. -/
inductive Takes (origin : Path) : LineSource → LineSource → Except Failure Leading → Prop
  | ended : Takes origin [] [] (.ok (.body none))
  | refused (fault : Fault) (rest : LineSource) : Takes origin [.error fault] rest (.error (.unreadable origin fault))
  | line {first : String} (rest : LineSource) (plain : first ≠ delimiter) :
      Takes origin [.ok first] rest (.ok (.body (some first)))
  | block {interior : List String} (rest : LineSource) (clear : delimiter ∉ interior) :
      Takes origin ((delimiter :: interior ++ [delimiter]).map .ok) rest
        (.ok (.block (delimiter :: interior ++ [delimiter])))
  | stopped {interior : List String} (fault : Fault) (rest : LineSource) (clear : delimiter ∉ interior) :
      Takes origin ((delimiter :: interior).map .ok ++ [.error fault]) rest (.error (.unreadable origin fault))
  | unclosed {interior : List String} (clear : delimiter ∉ interior) :
      Takes origin ((delimiter :: interior).map .ok) [] (.error (.unclosedFrontmatter origin))

/-- Behind an opening delimiter stand lines up to the next one, up to a refusal, or up to the end. -/
theorem opened_source_cases (source : LineSource) : ∃ interior : List String, delimiter ∉ interior ∧
    (source = interior.map .ok ∨ (∃ rest, source = interior.map .ok ++ .ok delimiter :: rest) ∨
      ∃ fault rest, source = interior.map .ok ++ .error fault :: rest) := by
  obtain ⟨lines, more, rfl, hmore⟩ : ∃ (lines : List String) (more : LineSource), source = lines.map .ok ++ more ∧
      (more = [] ∨ ∃ fault rest, more = .error fault :: rest) := by
    rcases source_cases source with ⟨lines, rfl⟩ | ⟨lines, fault, rest, rfl⟩
    · exact ⟨lines, [], by simp, .inl rfl⟩
    · exact ⟨lines, _, rfl, .inr ⟨fault, rest, rfl⟩⟩
  by_cases hmem : delimiter ∈ lines
  · obtain ⟨interior, body, rfl, hclear⟩ := List.eq_append_cons_of_mem hmem
    exact ⟨interior, hclear, .inr (.inl ⟨body.map .ok ++ more, by simp⟩)⟩
  · rcases hmore with rfl | ⟨fault, rest, rfl⟩
    · exact ⟨lines, hmem, .inl (List.append_nil _)⟩
    · exact ⟨lines, hmem, .inr (.inr ⟨fault, rest, rfl⟩)⟩

theorem takes_takeLeading (c : LineCursor) :
    ∃ pulled, Pulls c pulled c.takeLeading.2 ∧ Takes c.origin pulled c.takeLeading.2.rest c.takeLeading.1 := by
  obtain ⟨source, origin, n⟩ := c
  match source with
  | [] => exact ⟨[], .refl _, .ended⟩
  | .error fault :: rest => exact ⟨[.error fault], ⟨rfl, rfl, rfl⟩, .refused fault rest⟩
  | .ok first :: rest =>
    by_cases hfirst : first = delimiter
    · subst hfirst
      have htake : takeLeading ⟨.ok delimiter :: rest, origin, n⟩ =
          ((takeBlock origin rest (n + 1)).1.map fun block => .block (delimiter :: block),
            (takeBlock origin rest (n + 1)).2) := by
        simp only [takeLeading, next, isDelimiter_delimiter, if_true]
        split <;> simp [*, Except.map]
      rw [htake]
      obtain ⟨interior, hclear, rfl | ⟨rest, rfl⟩ | ⟨fault, rest, rfl⟩⟩ := opened_source_cases rest
      · rw [takeBlock_unclosed origin (n + 1) hclear]
        refine ⟨_, ⟨?_, rfl, ?_⟩, .unclosed hclear⟩
        · simp
        · simp only [linesAmong_map_ok, List.length_cons]
          omega
      · rw [takeBlock_clear origin rest (n + 1) hclear]
        refine ⟨_, ⟨?_, rfl, ?_⟩, .block rest hclear⟩
        · simp
        · simp only [linesAmong_map_ok, List.length_append, List.length_cons, List.length_nil]
          omega
      · rw [takeBlock_stopped origin fault rest (n + 1) hclear]
        refine ⟨_, ⟨?_, rfl, ?_⟩, .stopped fault rest hclear⟩
        · simp
        · simp only [linesAmong_stopped, List.length_cons]
          omega
    · have htake : takeLeading ⟨.ok first :: rest, origin, n⟩ = (.ok (.body (some first)), ⟨rest, origin, n + 1⟩) := by
        simp [takeLeading, next, isDelimiter_of_ne hfirst]
      rw [htake]
      exact ⟨[.ok first], ⟨rfl, rfl, rfl⟩, .line rest hfirst⟩

/-! ### Calls -/

inductive Call
  | next
  | item
  | leading
  deriving DecidableEq, Repr

inductive Answer
  | next (result : Except Failure (Option String))
  | item (result : Option (Except Failure String))
  | leading (result : Except Failure Leading)

/-- The lines that a call gives back, none when it fails. -/
def Answer.lines : Answer → List String
  | .next (.ok line) => line.toList
  | .item (some (.ok line)) => [line]
  | .leading (.ok (.block lines)) => lines
  | .leading (.ok (.body first)) => first.toList
  | _ => []

def Answer.failure? : Answer → Option Failure
  | .next (.error failure) => some failure
  | .item (some (.error failure)) => some failure
  | .leading (.error failure) => some failure
  | _ => none

def answer (c : LineCursor) : Call → Answer × LineCursor
  | .next => (.next c.next.1, c.next.2)
  | .item => (.item c.item.1, c.item.2)
  | .leading => (.leading c.takeLeading.1, c.takeLeading.2)

/-- What an answer says of the items that were pulled for it, and of those that are left. -/
structure Honest (origin : Path) (a : Answer) (pulled rest : LineSource) : Prop where
  returned : a.failure? = none → pulled = a.lines.map .ok
  lost : ∀ failure, a.failure? = some failure →
    (∃ (lines : List String) (fault : Fault), failure = .unreadable origin fault ∧
      pulled = lines.map .ok ++ [.error fault]) ∨
    ∃ lines : List String, failure = .unclosedFrontmatter origin ∧ pulled = lines.map .ok ∧ rest = []
  block : ∀ lines, a = .leading (.ok (.block lines)) →
    ∃ interior, delimiter ∉ interior ∧ lines = delimiter :: interior ++ [delimiter] ∧ pulled = lines.map .ok
  body : ∀ first, a = .leading (.ok (.body first)) →
    first ≠ some delimiter ∧ pulled = first.toList.map .ok ∧ (first = none → rest = [])
  single : (∀ result, a ≠ .leading result) → pulled.length ≤ 1

theorem Gives.honest_next {origin : Path} {pulled rest : LineSource} {result : Except Failure (Option String)}
    (h : Gives origin pulled rest result) : Honest origin (.next result) pulled rest := by
  cases h with
  | ended => exact ⟨fun _ => rfl, nofun, nofun, nofun, fun _ => Nat.zero_le 1⟩
  | line text => exact ⟨fun _ => rfl, nofun, nofun, nofun, fun _ => Nat.le_refl 1⟩
  | refused fault =>
    refine ⟨nofun, ?_, nofun, nofun, fun _ => Nat.le_refl 1⟩
    rintro failure ⟨⟩
    exact .inl ⟨[], fault, rfl, rfl⟩

theorem Takes.honest {origin : Path} {pulled rest : LineSource} {result : Except Failure Leading}
    (h : Takes origin pulled rest result) : Honest origin (.leading result) pulled rest := by
  have hsingle : (∀ r, Answer.leading result ≠ .leading r) → pulled.length ≤ 1 := fun hne => absurd rfl (hne result)
  cases h with
  | ended =>
    refine ⟨fun _ => rfl, nofun, nofun, ?_, hsingle⟩
    rintro first ⟨⟩
    exact ⟨nofun, rfl, fun _ => rfl⟩
  | refused fault =>
    refine ⟨nofun, ?_, nofun, nofun, hsingle⟩
    rintro failure ⟨⟩
    exact .inl ⟨[], fault, rfl, rfl⟩
  | line _ plain =>
    refine ⟨fun _ => rfl, nofun, nofun, ?_, hsingle⟩
    rintro first ⟨⟩
    exact ⟨fun he => plain (Option.some.inj he), rfl, nofun⟩
  | block _ clear =>
    refine ⟨fun _ => rfl, nofun, ?_, nofun, hsingle⟩
    rintro lines ⟨⟩
    exact ⟨_, clear, rfl, rfl⟩
  | stopped fault _ clear =>
    refine ⟨nofun, ?_, nofun, nofun, hsingle⟩
    rintro failure ⟨⟩
    exact .inl ⟨_, fault, rfl, rfl⟩
  | unclosed clear =>
    refine ⟨nofun, ?_, nofun, nofun, hsingle⟩
    rintro failure ⟨⟩
    exact .inr ⟨_, rfl, rfl, rfl⟩

theorem honest_answer (c : LineCursor) (call : Call) : ∃ pulled, Pulls c pulled (c.answer call).2 ∧
    Honest c.origin (c.answer call).1 pulled (c.answer call).2.rest := by
  cases call with
  | next =>
    obtain ⟨pulled, hpulls, hgives⟩ := gives_next c
    exact ⟨pulled, hpulls, hgives.honest_next⟩
  | item =>
    obtain ⟨pulled, hpulls, hgives⟩ := gives_next c
    have hhonest := hgives.honest_next
    unfold answer item
    generalize c.next = given at hpulls hhonest
    rcases given with ⟨_ | _ | _, after⟩ <;> exact ⟨pulled, hpulls, hhonest.returned, hhonest.lost, nofun, nofun,
      fun _ => hhonest.single nofun⟩
  | leading =>
    obtain ⟨pulled, hpulls, htakes⟩ := takes_takeLeading c
    exact ⟨pulled, hpulls, htakes.honest⟩

/-! ### Runs -/

/-- One call of a run: its answer, the items that the source no longer holds after it, and the cursor that it leaves. -/
structure Step where
  call : Call
  answer : Answer
  pulled : LineSource
  after : LineCursor

def step (c : LineCursor) (call : Call) : Step where
  call := call
  answer := (c.answer call).1
  pulled := c.rest.take (c.rest.length - (c.answer call).2.rest.length)
  after := (c.answer call).2

def steps (c : LineCursor) : List Call → List Step
  | [] => []
  | call :: calls => c.step call :: (c.answer call).2.steps calls

def Step.succeeds (s : Step) : Bool := s.answer.failure?.isNone

theorem honest_step (c : LineCursor) (call : Call) : Pulls c (c.step call).pulled (c.step call).after ∧
    Honest c.origin (c.step call).answer (c.step call).pulled (c.step call).after.rest := by
  obtain ⟨pulled, hpulls, hhonest⟩ := honest_answer c call
  have hpulled : (c.step call).pulled = pulled := hpulls.pulled_eq
  rw [hpulled]
  exact ⟨hpulls, hhonest⟩

theorem pulls_steps {c : LineCursor} {calls : List Call} {done later : List Step} {s : Step}
    (h : c.steps calls = done ++ s :: later) : Pulls c ((done ++ [s]).flatMap Step.pulled) s.after := by
  induction done generalizing c calls with
  | nil =>
    cases calls with
    | nil => cases h
    | cons call rest =>
      obtain ⟨rfl, -⟩ := List.cons.inj h
      simpa using (honest_step c call).1
  | cons first done ih =>
    cases calls with
    | nil => cases h
    | cons call rest =>
      obtain ⟨rfl, hrest⟩ := List.cons.inj h
      exact (honest_step c call).1.trans (ih hrest)

theorem honest_steps (c : LineCursor) (calls : List Call) :
    ∀ s ∈ c.steps calls, Honest c.origin s.answer s.pulled s.after.rest := by
  induction calls generalizing c with
  | nil =>
    intro s hs
    cases hs
  | cons call rest ih =>
    obtain ⟨hpulls, hhonest⟩ := honest_step c call
    have horigin : (c.step call).after.origin = c.origin := hpulls.origin
    refine List.forall_mem_cons.2 ⟨hhonest, fun s hs => ?_⟩
    rw [← horigin]
    exact ih (c.step call).after s hs

theorem call_steps (c : LineCursor) (calls : List Call) : (c.steps calls).map Step.call = calls := by
  induction calls generalizing c with
  | nil => rfl
  | cons call rest ih => rw [steps, List.map_cons, ih]; rfl

theorem returned_of_honest {origin : Path} {run : List Step}
    (h : ∀ s ∈ run, Honest origin s.answer s.pulled s.after.rest) :
    ((run.filter Step.succeeds).flatMap fun s => s.answer.lines).map .ok =
      (run.filter Step.succeeds).flatMap Step.pulled := by
  rw [List.map_flatMap, List.flatMap_def, List.flatMap_def]
  refine congrArg List.flatten (List.map_congr_left fun s hs => ?_)
  obtain ⟨hmem, hsucceeds⟩ := List.mem_filter.1 hs
  exact ((h s hmem).returned (Option.isNone_iff_eq_none.1 hsucceeds)).symm

/-- However calls on a new cursor are mixed, and whichever of them fail: after each of them the items pulled so far are
the front of the source and the count is that of the lines among them; the lines that were given back are the items
that the successful calls pulled, and every call says how it ended and what it pulled. -/
theorem steps_account (source : LineSource) (origin : Path) (calls : List Call) :
    let run := steps ⟨source, origin, 0⟩ calls
    run.map Step.call = calls ∧
    (∀ done s later, run = done ++ s :: later →
      source = (done ++ [s]).flatMap Step.pulled ++ s.after.rest ∧
      s.after.consumed = (linesAmong ((done ++ [s]).flatMap Step.pulled)).length) ∧
    ((run.filter Step.succeeds).flatMap fun s => s.answer.lines).map .ok =
      (run.filter Step.succeeds).flatMap Step.pulled ∧
    ∀ s ∈ run, Honest origin s.answer s.pulled s.after.rest := by
  intro run
  have hhonest : ∀ s ∈ run, Honest origin s.answer s.pulled s.after.rest := honest_steps ⟨source, origin, 0⟩ calls
  refine ⟨call_steps _ _, fun done s later h => ?_, returned_of_honest hhonest, hhonest⟩
  have hpulls : Pulls ⟨source, origin, 0⟩ ((done ++ [s]).flatMap Step.pulled) s.after := pulls_steps h
  exact ⟨hpulls.rest, hpulls.consumed.trans (Nat.zero_add _)⟩

/-- A block that is broken off at a refusal loses its opening line only: the same call again starts behind the refusal, and
takes the block that it finds there. -/
theorem steps_behind_refusal :
    let source : LineSource := [.ok "---", .error .notUtf8, .ok "---", .ok "a: 1", .ok "---", .ok "end"]
    let run := steps ⟨source, ⟨"d.md"⟩, 0⟩ [.leading, .leading]
    (run.filter Step.succeeds).flatMap Step.pulled = (["---", "a: 1", "---"] : List String).map .ok ∧
      ∀ done s later, run = done ++ s :: later →
        source = (done ++ [s]).flatMap Step.pulled ++ s.after.rest ∧
        s.after.consumed = (linesAmong ((done ++ [s]).flatMap Step.pulled)).length := by
  intro source run
  obtain ⟨-, hmoments, hreturned, -⟩ := steps_account source ⟨"d.md"⟩ [.leading, .leading]
  have hlines : ((run.filter Step.succeeds).flatMap fun s => s.answer.lines) = ["---", "a: 1", "---"] := by
    decide +kernel
  rw [← hlines]
  exact ⟨hreturned.symm, hmoments⟩

end LineCursor
end NoteStencil
