import NoteStencil.Proofs.Tokens

/-! What one context lets happen over any number of texts. A name is decided once: the first token that needs an answer
or a computed value gets it, and from then on the context gives the same for that name without asking and without
running anything. So the questions, the producers that run and all that is put in can be told from the names of
the tokens and the first context, and the last context expands each of the texts again to the same. -/

namespace NoteStencil

variable {σ : Type}

/-! ### Questions -/

/-- The state after one question for each of the names. -/
def Prompter.after (p : Prompter σ) (names : List String) (s : σ) : σ :=
  names.foldl (fun s name => (p.ask (question name) s).2) s

/-- Notes each question that it passes on. -/
def Prompter.noted (p : Prompter σ) : Prompter (σ × List String) :=
  ⟨fun text s => ((p.ask text s.1).1, (p.ask text s.1).2, s.2 ++ [text])⟩

theorem Prompter.after_append (p : Prompter σ) (xs ys : List String) (s : σ) :
    p.after (xs ++ ys) s = p.after ys (p.after xs s) := List.foldl_append

theorem Prompter.noted_after (p : Prompter σ) (names : List String) (s : σ) (log : List String) :
    p.noted.after names (s, log) = (p.after names s, log ++ names.map question) := by
  induction names generalizing s log with
  | nil => simp [after]
  | cons name rest ih =>
    have hrest := ih (p.ask (question name) s).2 (log ++ [question name])
    rw [List.append_assoc] at hrest
    exact hrest

/-! ### Lines before others -/

/-- The lines behind others are expanded with the context and the state that those left. -/
theorem expandLines_append (p : Prompter σ) (xs ys : List String) (c : Context) (s : σ) :
    expandLines p (xs ++ ys) c s =
      ((expandLines p xs c s).1 ++ (expandLines p ys (expandLines p xs c s).2.1 (expandLines p xs c s).2.2).1,
        (expandLines p ys (expandLines p xs c s).2.1 (expandLines p xs c s).2.2).2) := by
  induction xs generalizing c s with
  | nil => rfl
  | cons line rest ih => simp only [List.cons_append, expandLines, ih]

theorem expandLines_length (p : Prompter σ) (lines : List String) (c : Context) (s : σ) :
    (expandLines p lines c s).1.length = lines.length := by
  induction lines generalizing c s with
  | nil => rfl
  | cons line rest ih => simp only [expandLines, List.length_cons, ih]

/-! ### What is open for a name -/

namespace Context

instance (c : Context) (raw : String) : Decidable (c.Asks raw) :=
  decidable_of_iff (c.values.find? raw = none ∧ trim raw ≠ "" ∧ trim raw ∉ c.skipped ∧ c.answers.find? (trim raw) = none)
    ⟨fun ⟨h₁, h₂, h₃, h₄⟩ => ⟨h₁, h₂, h₃, h₄⟩, fun ⟨h₁, h₂, h₃, h₄⟩ => ⟨h₁, h₂, h₃, h₄⟩⟩

/-- The name to ask for, where a token with this name needs an answer. -/
def asks? (c : Context) (raw : String) : Option String := if c.Asks raw then some (trim raw) else none

/-- The producer to run, where a token with this name needs its value. -/
def runs? (c : Context) (raw : String) : Option (String × Producer) :=
  match c.values.find? raw with
  | some (.computed producer) => some (raw, producer)
  | _ => none

/-- Nothing is left to ask or to run. -/
structure Settled (c : Context) (raw : String) : Prop where
  asks : c.asks? raw = none
  runs : c.runs? raw = none

/-- What a context gives for a name without asking and without running anything. -/
def known (c : Context) (raw : String) : Option String :=
  match c.values.find? raw with
  | some (.literal text) => some text
  | some (.computed _) => none
  | none => if trim raw = "" ∨ trim raw ∈ c.skipped then none else c.answers.find? (trim raw)

/-- Every name that is settled stays so, with the same value. -/
def Keeps (c c' : Context) : Prop := ∀ raw, c.Settled raw → c'.Settled raw ∧ c'.known raw = c.known raw

variable {c c' c'' : Context} {raw name : String}

theorem Keeps.refl (c : Context) : c.Keeps c := fun _ h => ⟨h, rfl⟩

theorem Keeps.trans (h : c.Keeps c') (h' : c'.Keeps c'') : c.Keeps c'' := fun raw hs =>
  ⟨(h' raw (h raw hs).1).1, (h' raw (h raw hs).1).2.trans (h raw hs).2⟩

theorem asks?_of_asks (h : c.Asks raw) : c.asks? raw = some (trim raw) := if_pos h

theorem asks?_eq_none_iff : c.asks? raw = none ↔ ¬ c.Asks raw := by
  unfold asks?
  split <;> simp [*]

theorem asks?_of_bound {binding : Substitution} (h : c.values.find? raw = some binding) : c.asks? raw = none :=
  asks?_eq_none_iff.2 fun ha => by
    have hunbound := ha.unbound
    rw [h] at hunbound
    cases hunbound

theorem runs?_of_unbound (h : c.values.find? raw = none) : c.runs? raw = none := by
  unfold runs?
  rw [h]

theorem runs?_eq_some_iff {e : String × Producer} :
    c.runs? raw = some e ↔ e.1 = raw ∧ c.values.find? raw = some (.computed e.2) := by
  unfold runs?
  split
  · next producer h =>
    obtain ⟨name, producer'⟩ := e
    simp [h, eq_comm]
  · next h =>
    constructor
    · exact nofun
    · rintro ⟨-, hbound⟩
      exact absurd hbound (h e.2)

/-- A settled name needs neither the prompt nor a producer. -/
theorem Settled.decides {τ : Type} (h : c.Settled raw) (q : Prompter τ) (t : τ) :
    Decides q raw c t (c.known raw) c t := by
  unfold known
  cases hbound : c.values.find? raw with
  | some binding =>
    cases binding with
    | literal text => exact .literal hbound
    | computed producer =>
      have hruns : c.runs? raw = some (raw, producer) := runs?_eq_some_iff.2 ⟨rfl, hbound⟩
      rw [h.runs] at hruns
      cases hruns
  | none =>
    simp only
    split
    · next hpass => exact .passed hbound hpass
    · next hpass =>
      obtain ⟨hnamed, hundeclined⟩ := not_or.1 hpass
      cases hanswer : c.answers.find? (trim raw) with
      | some answer => exact .recalled hbound hnamed hundeclined hanswer
      | none => exact absurd ⟨hbound, hnamed, hundeclined, hanswer⟩ (asks?_eq_none_iff.1 h.asks)

/-! ### One decision -/

/-- What deciding on a name does: the one question it may ask, the one producer it may run, and nothing else. -/
structure Step (p : Prompter σ) (raw : String) (c : Context) (s : σ) (value : Option String) (c' : Context) (s' : σ) :
    Prop where
  state : s' = p.after (c.asks? raw).toList s
  runs : c'.runs = c.runs ++ (c.runs? raw).toList
  asks? : ∀ r, c'.asks? r = if c.asks? r = c.asks? raw then none else c.asks? r
  runs? : ∀ r, c'.runs? r = if c.runs? r = c.runs? raw then none else c.runs? r
  known : c'.known raw = value
  kept : ∀ r, c.Settled r → c'.known r = c.known r

theorem Step.stays {p : Prompter σ} {s : σ} {value : Option String} (h : c.Settled raw) (hvalue : c.known raw = value) :
    Step p raw c s value c s := by
  refine ⟨by rw [h.asks]; rfl, by rw [h.runs]; simp, fun r => ?_, fun r => ?_, hvalue, fun _ _ => rfl⟩
  · rw [h.asks]
    split <;> simp [*]
  · rw [h.runs]
    split <;> simp [*]

/-- The name that was asked for is settled now, however a token writes it, and no other name changes. -/
theorem asks?_of_asks_iff (h : c.Asks raw) (hiff : ∀ r, c'.Asks r ↔ c.Asks r ∧ trim r ≠ trim raw) (r : String) :
    c'.asks? r = if c.asks? r = c.asks? raw then none else c.asks? r := by
  rw [asks?_of_asks h]
  by_cases hr : c.Asks r
  · by_cases htrim : trim r = trim raw
    · have hnot : ¬ c'.Asks r := fun h' => ((hiff r).1 h').2 htrim
      simp [asks?, hr, hnot, htrim]
    · have hasks : c'.Asks r := (hiff r).2 ⟨hr, htrim⟩
      simp [asks?, hr, hasks, htrim]
  · have hnot : ¬ c'.Asks r := fun h' => hr ((hiff r).1 h').1
    simp [asks?, hr, hnot]

theorem runs?_of_none (hraw : c.values.find? raw = none) (hvalues : c'.values = c.values) (r : String) :
    c'.runs? r = if c.runs? r = c.runs? raw then none else c.runs? r := by
  have heq : c'.runs? r = c.runs? r := by rw [Context.runs?, hvalues, Context.runs?]
  rw [heq, runs?_of_unbound hraw]
  split <;> simp [*]

/-- A name that is settled and not bound is trimmed to another one than a name that has to be asked for. -/
theorem Settled.trim_ne {r : String} (h : c.Settled r) (hr : c.values.find? r = none) (hraw : c.Asks raw) :
    trim r ≠ trim raw := by
  intro htrim
  refine asks?_eq_none_iff.1 h.asks ⟨hr, ?_, ?_, ?_⟩
  · rw [htrim]
    exact hraw.named
  · rw [htrim]
    exact hraw.undeclined
  · rw [htrim]
    exact hraw.unanswered

theorem known_of_asks {r : String} (h : c.Asks raw) (hr : c.Settled r) (hvalues : c'.values = c.values)
    (hskipped : trim r ≠ trim raw → (trim r ∈ c'.skipped ↔ trim r ∈ c.skipped))
    (hanswers : trim r ≠ trim raw → c'.answers.find? (trim r) = c.answers.find? (trim r)) :
    c'.known r = c.known r := by
  unfold known
  rw [hvalues]
  cases hbound : c.values.find? r with
  | some binding => cases binding <;> rfl
  | none =>
    have htrim := hr.trim_ne hbound h
    simp only [hskipped htrim, hanswers htrim]

theorem step_computed {p : Prompter σ} {s : σ} {producer : Producer}
    (h : c.values.find? raw = some (.computed producer)) :
    Step p raw c s (some producer.run)
      { c with values := c.values.put raw (.literal producer.run), runs := c.runs ++ [(raw, producer)] } s := by
  have hruns : c.runs? raw = some (raw, producer) := runs?_eq_some_iff.2 ⟨rfl, h⟩
  have hasks : c.asks? raw = none := asks?_of_bound h
  have hself := Table.find?_put_self c.values raw (.literal producer.run)
  have hother {r : String} (hne : r ≠ raw) := Table.find?_put_of_ne c.values (.literal producer.run) hne
  refine ⟨by rw [hasks]; rfl, by rw [hruns]; rfl, fun r => ?_, fun r => ?_, ?_, fun r hr => ?_⟩
  · by_cases hne : r = raw
    · rw [hne, asks?_of_bound hself, if_pos rfl]
    · have hiff : Asks { c with values := c.values.put raw (.literal producer.run), runs := c.runs ++ [(raw, producer)] } r ↔
          c.Asks r :=
        ⟨fun ha => ⟨(hother hne).symm.trans ha.unbound, ha.named, ha.undeclined, ha.unanswered⟩,
          fun ha => ⟨(hother hne).trans ha.unbound, ha.named, ha.undeclined, ha.unanswered⟩⟩
      rw [hasks]
      by_cases hr : c.Asks r
      · simp [asks?, hr, hiff.2 hr]
      · simp [asks?, hr, mt hiff.1 hr]
  · by_cases hne : r = raw
    · rw [hne, if_pos rfl]
      simp only [Context.runs?, hself]
    · have hdiffer : c.runs? r ≠ c.runs? raw := fun he => by
        rw [hruns] at he
        exact hne (runs?_eq_some_iff.1 he).1.symm
      rw [if_neg hdiffer]
      simp only [Context.runs?, hother hne]
  · unfold known
    rw [hself]
  · have hne : r ≠ raw := fun he => by
      have hnone := hr.runs
      rw [he, hruns] at hnone
      cases hnone
    unfold known
    rw [hother hne]

theorem step_given {p : Prompter σ} {s s' : σ} {answer : String} (h : c.Asks raw)
    (reply : p.ask (question (trim raw)) s = (some answer, s')) :
    Step p raw c s (some answer) { c with answers := c.answers.put (trim raw) answer } s' := by
  have hself := Table.find?_put_self c.answers (trim raw) answer
  have hother {n : String} (hne : n ≠ trim raw) := Table.find?_put_of_ne c.answers answer hne
  refine ⟨?_, ?_, asks?_of_asks_iff h fun r => ⟨fun ha => ?_, fun ⟨ha, hne⟩ => ?_⟩, runs?_of_none h.unbound rfl, ?_,
    fun r hr => known_of_asks h hr rfl (fun _ => Iff.rfl) fun hne => hother hne⟩
  · rw [asks?_of_asks h]
    simp only [Option.toList_some, Prompter.after, List.foldl_cons, List.foldl_nil, reply]
  · rw [runs?_of_unbound h.unbound]
    simp
  · have hne : trim r ≠ trim raw := fun he => by
      have hnone := ha.unanswered
      rw [he] at hnone
      rw [hself] at hnone
      cases hnone
    exact ⟨⟨ha.unbound, ha.named, ha.undeclined, (hother hne).symm.trans ha.unanswered⟩, hne⟩
  · exact ⟨ha.unbound, ha.named, ha.undeclined, (hother hne).trans ha.unanswered⟩
  · simp only [known, h.unbound, h.named, h.undeclined, or_self, if_false, hself]

theorem step_declined {p : Prompter σ} {s s' : σ} {answer : Option String} (h : c.Asks raw)
    (reply : p.ask (question (trim raw)) s = (answer, s')) :
    Step p raw c s none { c with skipped := c.skipped ++ [trim raw] } s' := by
  have hskipped {n : String} (hne : n ≠ trim raw) : n ∈ c.skipped ++ [trim raw] ↔ n ∈ c.skipped := by simp [hne]
  refine ⟨?_, ?_, asks?_of_asks_iff h fun r => ⟨fun ha => ?_, fun ⟨ha, hne⟩ => ?_⟩, runs?_of_none h.unbound rfl, ?_,
    fun r hr => known_of_asks h hr rfl (fun hne => hskipped hne) fun _ => rfl⟩
  · rw [asks?_of_asks h]
    simp only [Option.toList_some, Prompter.after, List.foldl_cons, List.foldl_nil, reply]
  · rw [runs?_of_unbound h.unbound]
    simp
  · have hne : trim r ≠ trim raw := fun he => ha.undeclined (by simp [he])
    exact ⟨⟨ha.unbound, ha.named, fun hm => ha.undeclined ((hskipped hne).2 hm), ha.unanswered⟩, hne⟩
  · exact ⟨ha.unbound, ha.named, fun hm => ha.undeclined ((hskipped hne).1 hm), ha.unanswered⟩
  · simp only [known, h.unbound, List.mem_append, List.mem_singleton, or_true, if_true]

theorem step_of_decides {p : Prompter σ} {s s' : σ} {value : Option String} (h : Decides p raw c s value c' s') :
    Step p raw c s value c' s' := by
  cases h with
  | literal hbound =>
    refine .stays ⟨asks?_of_bound hbound, ?_⟩ ?_
    · rw [Context.runs?, hbound]
    · rw [known, hbound]
  | computed hbound => exact step_computed hbound
  | passed hunbound hpass =>
    refine .stays ⟨asks?_eq_none_iff.2 fun ha => ?_, runs?_of_unbound hunbound⟩ ?_
    · exact hpass.elim ha.named ha.undeclined
    · simp only [known, hunbound, if_pos hpass]
  | recalled hunbound hnamed hundeclined hanswer =>
    refine .stays ⟨asks?_eq_none_iff.2 fun ha => ?_, runs?_of_unbound hunbound⟩ ?_
    · have hnone := ha.unanswered
      rw [hanswer] at hnone
      cases hnone
    · simp only [known, hunbound, hnamed, hundeclined, or_self, if_false, hanswer]
  | given hasks reply _ => exact step_given hasks reply
  | declined hasks reply _ => exact step_declined hasks reply

theorem Step.keeps {p : Prompter σ} {s s' : σ} {value : Option String} (h : Step p raw c s value c' s') : c.Keeps c' := by
  refine fun r hr => ⟨⟨?_, ?_⟩, h.kept r hr⟩
  · rw [h.asks?, hr.asks, ite_self]
  · rw [h.runs?, hr.runs, ite_self]

theorem Step.settled {p : Prompter σ} {s s' : σ} {value : Option String} (h : Step p raw c s value c' s') :
    c'.Settled raw :=
  ⟨by rw [h.asks?, if_pos rfl], by rw [h.runs?, if_pos rfl]⟩

end Context

/-! ### Many decisions -/

/-- Names decided on one after the other. -/
inductive Deciding (p : Prompter σ) : List String → Context → σ → Context → σ → Prop
  | none {c : Context} {s : σ} : Deciding p [] c s c s
  | next {raw : String} {raws : List String} {value : Option String} {c c' c'' : Context} {s s' s'' : σ}
      (decides : Decides p raw c s value c' s') (rest : Deciding p raws c' s' c'' s'') :
      Deciding p (raw :: raws) c s c'' s''

theorem eraseDups_nodup [BEq α] [LawfulBEq α] (xs : List α) : xs.eraseDups.Nodup := by
  induction hn : xs.length using Nat.strongRecOn generalizing xs with
  | ind n ih =>
    cases xs with
    | nil => simp
    | cons x rest =>
      have hle := List.length_filter_le (fun y => !y == x) rest
      rw [List.length_cons] at hn
      rw [List.eraseDups_cons, List.nodup_cons]
      exact ⟨by simp, ih _ (by omega) _ rfl⟩

/-- What is there for the first name comes first, and is struck out for all names behind it. -/
theorem eraseDups_filterMap_cons [DecidableEq α] [BEq α] [LawfulBEq α] {f f' : String → Option α} {raw : String} (raws : List String)
    (h : ∀ r, f' r = if f r = f raw then none else f r) :
    ((raw :: raws).filterMap f).eraseDups = (f raw).toList ++ (raws.filterMap f').eraseDups := by
  cases hraw : f raw with
  | none =>
    have hsame : f' = f := funext fun r => by
      rw [h, hraw]
      split <;> simp [*]
    rw [List.filterMap_cons_none hraw, hsame]
    rfl
  | some x =>
    have hstruck : raws.filterMap f' = (raws.filterMap f).filter (fun y => !y == x) := by
      rw [List.filter_filterMap]
      refine congrArg (List.filterMap · raws) (funext fun r => ?_)
      rw [h, hraw]
      cases f r with
      | none => rfl
      | some y => by_cases hy : y = x <;> simp [Option.filter, hy]
    rw [List.filterMap_cons_some hraw, List.eraseDups_cons, hstruck]
    rfl

namespace Deciding

variable {p : Prompter σ} {raws raws' : List String} {c c' c'' : Context} {s s' s'' : σ}

theorem append (h : Deciding p raws c s c' s') (h' : Deciding p raws' c' s' c'' s'') :
    Deciding p (raws ++ raws') c s c'' s'' := by
  induction h with
  | none => exact h'
  | next decides _ ih => exact .next decides (ih h')

theorem keeps (h : Deciding p raws c s c' s') : c.Keeps c' := by
  induction h with
  | none => exact .refl _
  | next decides _ ih => exact (Context.step_of_decides decides).keeps.trans ih

theorem settled (h : Deciding p raws c s c' s') : ∀ raw ∈ raws, c'.Settled raw := by
  induction h with
  | none => simp
  | next decides rest ih =>
    intro raw hraw
    rcases List.mem_cons.1 hraw with rfl | hraw
    · exact (rest.keeps _ (Context.step_of_decides decides).settled).1
    · exact ih raw hraw

theorem state_eq (h : Deciding p raws c s c' s') : s' = p.after (raws.filterMap c.asks?).eraseDups s := by
  induction h with
  | none => rfl
  | next decides _ ih =>
    have hstep := Context.step_of_decides decides
    rw [eraseDups_filterMap_cons _ hstep.asks?, Prompter.after_append, ← hstep.state]
    exact ih

theorem runs_eq (h : Deciding p raws c s c' s') : c'.runs = c.runs ++ (raws.filterMap c.runs?).eraseDups := by
  induction h with
  | none => simp
  | next decides _ ih =>
    have hstep := Context.step_of_decides decides
    rw [eraseDups_filterMap_cons _ hstep.runs?, ih, hstep.runs, List.append_assoc]

end Deciding

/-! ### Texts -/

def Piece.name? : Piece → Option String
  | .text _ => none
  | .token raw => some raw

/-- Names of the tokens in a text, as they are written. -/
def rawNames (text : String) : List String := (scan text.toList).filterMap Piece.name?

/-- The piece with a value put in for a name that has one. -/
def Piece.filled (value : String → Option String) : Piece → List Char
  | .text c => [c]
  | .token raw => ((value raw).getD (tokenText raw)).toList

/-- The text with each token replaced by the value of its name, or kept where the name has none. -/
def fill (value : String → Option String) (text : String) : String :=
  String.ofList ((scan text.toList).flatMap (Piece.filled value))

variable {p : Prompter σ} {c c' c'' : Context} {s s' : σ}

theorem deciding_expandPieces (p : Prompter σ) (pieces : List Piece) (c : Context) (s : σ) :
    Deciding p (pieces.filterMap Piece.name?) c s (expandPieces p pieces c s).2.1 (expandPieces p pieces c s).2.2 := by
  induction pieces generalizing c s with
  | nil => exact .none
  | cons piece rest ih =>
    cases piece with
    | text ch => exact ih c s
    | token raw => exact .next (decides_valueFor p raw c s) (ih _ _)

/-- What is put in while a text is expanded is what the context gives afterwards, and later. -/
theorem expandPieces_eq_filled (p : Prompter σ) (pieces : List Piece) (c : Context) (s : σ)
    (h : (expandPieces p pieces c s).2.1.Keeps c'') :
    (expandPieces p pieces c s).1 = pieces.flatMap (Piece.filled c''.known) := by
  induction pieces generalizing c s with
  | nil => rfl
  | cons piece rest ih =>
    cases piece with
    | text ch => exact congrArg (ch :: ·) (ih c s h)
    | token raw =>
      have hstep := Context.step_of_decides (decides_valueFor p raw c s)
      have hrest := (deciding_expandPieces p rest (valueFor p raw c s).2.1 (valueFor p raw c s).2.2).keeps
      have hvalue : c''.known raw = (valueFor p raw c s).1 :=
        ((hrest.trans h) raw hstep.settled).2.trans hstep.known
      rw [List.flatMap_cons, ← ih _ _ h, Piece.filled, hvalue]
      rfl

theorem deciding_expand (p : Prompter σ) (text : String) (c : Context) (s : σ) :
    Deciding p (rawNames text) c s (expand p text c s).2.1 (expand p text c s).2.2 :=
  deciding_expandPieces p (scan text.toList) c s

theorem expand_eq_fill (p : Prompter σ) (text : String) (c : Context) (s : σ) (h : (expand p text c s).2.1.Keeps c'') :
    (expand p text c s).1 = fill c''.known text :=
  congrArg String.ofList (expandPieces_eq_filled p (scan text.toList) c s h)

theorem deciding_expandLines (p : Prompter σ) (texts : List String) (c : Context) (s : σ) :
    Deciding p (texts.flatMap rawNames) c s (expandLines p texts c s).2.1 (expandLines p texts c s).2.2 := by
  induction texts generalizing c s with
  | nil => exact .none
  | cons text rest ih => exact (deciding_expand p text c s).append (ih _ _)

theorem expandLines_eq_fill (p : Prompter σ) (texts : List String) (c : Context) (s : σ)
    (h : (expandLines p texts c s).2.1.Keeps c'') :
    (expandLines p texts c s).1 = texts.map (fill c''.known) := by
  induction texts generalizing c s with
  | nil => rfl
  | cons text rest ih =>
    have hrest := (deciding_expandLines p rest (expand p text c s).2.1 (expand p text c s).2.2).keeps
    rw [List.map_cons, ← ih _ _ h, ← expand_eq_fill p text c s (hrest.trans h)]
    rfl

theorem expandPieces_settled {τ : Type} {pieces : List Piece} (h : ∀ raw ∈ pieces.filterMap Piece.name?, c.Settled raw)
    (q : Prompter τ) (t : τ) : expandPieces q pieces c t = (pieces.flatMap (Piece.filled c.known), c, t) := by
  induction pieces with
  | nil => rfl
  | cons piece rest ih =>
    cases piece with
    | text ch =>
      rw [expandPieces, ih h]
      rfl
    | token raw =>
      have hraw := (h raw List.mem_cons_self).decides q t
      rw [expandPieces, hraw.valueFor_eq]
      simp only [ih fun r hr => h r (List.mem_cons_of_mem raw hr)]
      rfl

/-- A context in which all names of a text are settled expands it without a question and without running anything. -/
theorem expand_settled {τ : Type} {text : String} (h : ∀ raw ∈ rawNames text, c.Settled raw) (q : Prompter τ) (t : τ) :
    expand q text c t = (fill c.known text, c, t) := by
  rw [expand, expandPieces_settled h q t]
  rfl

theorem filterMap_asks? (c : Context) (raws : List String) :
    raws.filterMap c.asks? = (raws.filter fun raw => c.Asks raw).map trim := by
  induction raws with
  | nil => rfl
  | cons raw rest ih =>
    by_cases h : c.Asks raw
    · rw [List.filterMap_cons_some (Context.asks?_of_asks h), List.filter_cons_of_pos (by simpa using h), List.map_cons, ih]
    · rw [List.filterMap_cons_none (Context.asks?_eq_none_iff.2 h), List.filter_cons_of_neg (by simpa using h), ih]

theorem names_nodup_of_runs? {ran : List (String × Producer)} (h : ran.Nodup)
    (hbound : ∀ e ∈ ran, c.values.find? e.1 = some (.computed e.2)) : (ran.map (·.1)).Nodup := by
  refine List.pairwise_map.2 (h.imp_of_mem fun {a b} ha hb hne hname => hne ?_)
  have hproducer := (hbound a ha).symm.trans ((congrArg c.values.find? hname).trans (hbound b hb))
  exact Prod.ext hname (Substitution.computed.inj (Option.some.inj hproducer))

/-- Over any texts with one context, each name is asked for at most once, in the order in which open names come up, and
each producer runs at most once, and only for its very name. Every token gets what the last context gives for its name,
which expands the texts again without a question and without running anything. -/
theorem expandLines_once (p : Prompter σ) (texts : List String) (c : Context) (s : σ) :
    let raws := texts.flatMap rawNames
    let outs := (expandLines p texts c s).1
    let c' := (expandLines p texts c s).2.1
    let s' := (expandLines p texts c s).2.2
    ∃ (asked : List String) (ran : List (String × Producer)),
      asked = ((raws.filter fun raw => c.Asks raw).map trim).eraseDups ∧ asked.Nodup ∧
      s' = p.after asked s ∧ (expandLines p.noted texts c (s, [])).2.2 = (s', asked.map question) ∧
      c'.runs = c.runs ++ ran ∧ (ran.map (·.1)).Nodup ∧
      (∀ e ∈ ran, e.1 ∈ raws ∧ c.values.find? e.1 = some (.computed e.2)) ∧
      outs = texts.map (fill c'.known) ∧
      ∀ text ∈ texts, ∀ (τ : Type) (q : Prompter τ) (t : τ), expand q text c' t = (fill c'.known text, c', t) := by
  intro raws outs c' s'
  have hrun : Deciding p raws c s c' s' := deciding_expandLines p texts c s
  have hnoted := (deciding_expandLines p.noted texts c (s, [])).state_eq
  have hran : ∀ e ∈ (raws.filterMap c.runs?).eraseDups, e.1 ∈ raws ∧ c.values.find? e.1 = some (.computed e.2) := by
    intro e he
    obtain ⟨raw, hraw, hruns⟩ := List.mem_filterMap.1 (List.mem_eraseDups.1 he)
    obtain ⟨rfl, hbound⟩ := Context.runs?_eq_some_iff.1 hruns
    exact ⟨hraw, hbound⟩
  refine ⟨_, _, rfl, eraseDups_nodup _, ?_, ?_, hrun.runs_eq, ?_, hran, ?_, ?_⟩
  · rw [← filterMap_asks?]
    exact hrun.state_eq
  · rw [hnoted, Prompter.noted_after, ← filterMap_asks?, hrun.state_eq, List.nil_append]
  · exact names_nodup_of_runs? (eraseDups_nodup _) fun e he => (hran e he).2
  · exact expandLines_eq_fill p texts c s (.refl _)
  · intro text htext τ q t
    exact expand_settled (fun raw hraw => hrun.settled raw (List.mem_flatMap.2 ⟨text, htext, hraw⟩)) q t

/-- Each question has another answer, but each name has one value. -/
example :
    (expandLines ⟨fun _ n => (some (toString n), n + 1)⟩
      ["\x7b\x7ba\x7d\x7d \x7b\x7b a \x7d\x7d", "\x7b\x7bb\x7d\x7d\x7b\x7ba\x7d\x7d"] {} 0).1 = ["0 0", "10"] := by
  decide +kernel

end NoteStencil
