import Mathlib.Data.List.Nodup
import NoteStencil.Console
import NoteStencil.Proofs.Asking
import NoteStencil.Proofs.NoteFields
import NoteStencil.Proofs.TextLines

/-! Answers that are typed on a terminal. Names are asked for in the order in which they come up, each one once, and a
question takes one typed line. So the first unknown name gets the first line, the next name the next line, and what was
typed behind the last of these lines is still there. -/

namespace NoteStencil

variable {σ : Type}

/-! ### Replies -/

/-- What a prompt gives back when it is asked for the names, one after the other. -/
def Prompter.replies (p : Prompter σ) : List String → σ → List (Option String)
  | [], _ => []
  | name :: rest, s => (p.ask (question name) s).1 :: p.replies rest (p.ask (question name) s).2

theorem Prompter.replies_length (p : Prompter σ) (names : List String) (s : σ) :
    (p.replies names s).length = names.length := by
  induction names generalizing s with
  | nil => rfl
  | cons name rest ih => rw [replies, List.length_cons, ih, List.length_cons]

theorem Prompter.replies_append (p : Prompter σ) (xs ys : List String) (s : σ) :
    p.replies (xs ++ ys) s = p.replies xs s ++ p.replies ys (p.after xs s) := by
  induction xs generalizing s with
  | nil => rfl
  | cons name rest ih =>
    rw [List.cons_append, replies, ih, replies, List.cons_append]
    rfl

/-- The answer in a reply; one without text is none. -/
def answerIn (reply : Option String) : Option String := reply.filter (· ≠ "")

namespace Context

variable {c c' c'' : Context} {raw name : String} {entries entries' : List (String × Option String)}

/-- What a context keeps of names and the replies to them: the answers, and the names without one. What other names are
bound to stays. -/
structure Books (entries : List (String × Option String)) (c c' : Context) : Prop where
  answers : c'.answers = c.answers ++ entries.filterMap fun e => (answerIn e.2).map (e.1, ·)
  skipped : c'.skipped = c.skipped ++ (entries.filter fun e => (answerIn e.2).isNone).map (·.1)
  bound : ∀ raw, (c'.resolve raw).1 = (c.resolve raw).1

theorem Books.trans (h : Books entries c c') (h' : Books entries' c' c'') : Books (entries ++ entries') c c'' := by
  refine ⟨?_, ?_, fun raw => (h'.bound raw).trans (h.bound raw)⟩
  · rw [h'.answers, h.answers, List.filterMap_append, List.append_assoc]
  · rw [h'.skipped, h.skipped, List.filter_append, List.map_append, List.append_assoc]

theorem resolve_congr (h : c'.values.find? raw = c.values.find? raw) : (c'.resolve raw).1 = (c.resolve raw).1 := by
  unfold resolve
  rw [h]
  cases c.values.find? raw with
  | none => rfl
  | some binding => cases binding <;> rfl

theorem has_eq (c : Context) (raw : String) : c.has raw = (c.resolve raw).1.isSome := by
  unfold has Table.has resolve
  cases c.values.find? raw with
  | none => rfl
  | some binding => cases binding <;> rfl

theorem Books.has (h : Books entries c c') (raw : String) : c'.has raw = c.has raw := by
  rw [has_eq, has_eq, h.bound]

theorem has_eq_false_iff : c.has raw = false ↔ c.values.find? raw = none := by
  rw [Context.has, Table.has, Option.isSome_eq_false_iff, Option.isNone_iff_eq_none]

theorem Books.stays (h : c'.answers = c.answers) (hskipped : c'.skipped = c.skipped)
    (hbound : ∀ raw, (c'.resolve raw).1 = (c.resolve raw).1) : Books [] c c' := by
  refine ⟨?_, ?_, hbound⟩
  · rw [h]
    simp
  · rw [hskipped]
    simp

/-- One decision asks for at most one name, and books what it hears. -/
theorem books_of_decides {p : Prompter σ} {s s' : σ} {value : Option String} (h : Decides p raw c s value c' s') :
    Books ((c.asks? raw).toList.zip (p.replies (c.asks? raw).toList s)) c c' := by
  cases h with
  | literal hbound =>
    rw [asks?_of_bound hbound]
    exact .stays rfl rfl fun _ => rfl
  | computed hbound =>
    rw [asks?_of_bound hbound]
    refine .stays rfl rfl fun r => ?_
    by_cases hr : r = raw
    · rw [hr]
      simp only [resolve, hbound, Table.find?_put_self]
    · exact resolve_congr (Table.find?_put_of_ne c.values _ hr)
  | passed hunbound hpass =>
    rw [asks?_eq_none_iff.2 fun ha => hpass.elim ha.named ha.undeclined]
    exact .stays rfl rfl fun _ => rfl
  | recalled hunbound hnamed hundeclined hanswer =>
    rw [asks?_eq_none_iff.2 fun ha => by
      have hnone := ha.unanswered
      rw [hanswer] at hnone
      cases hnone]
    exact .stays rfl rfl fun _ => rfl
  | @given answer _ hasks reply htext =>
    have hput : c.answers.put (trim raw) answer = c.answers ++ [(trim raw, answer)] := by
      refine Table.put_last answer (Table.has_eq_false_iff.1 ?_)
      rw [Table.has, hasks.unanswered]
      rfl
    rw [asks?_of_asks hasks]
    refine ⟨?_, ?_, fun _ => resolve_congr rfl⟩
    · simp [Prompter.replies, reply, answerIn, Option.filter, htext, hput]
    · simp [Prompter.replies, reply, answerIn, Option.filter, htext]
  | declined hasks reply hblank =>
    rw [asks?_of_asks hasks]
    rcases hblank with rfl | rfl
    · exact ⟨by simp [Prompter.replies, reply, answerIn], by simp [Prompter.replies, reply, answerIn],
        fun _ => resolve_congr rfl⟩
    · exact ⟨by simp [Prompter.replies, reply, answerIn, Option.filter],
        by simp [Prompter.replies, reply, answerIn, Option.filter], fun _ => resolve_congr rfl⟩

/-- Many decisions book all replies, in the order of the questions. -/
theorem books_of_deciding {p : Prompter σ} {raws : List String} {s s' : σ} (h : Deciding p raws c s c' s') :
    Books ((raws.filterMap c.asks?).eraseDups.zip (p.replies (raws.filterMap c.asks?).eraseDups s)) c c' := by
  induction h with
  | none => exact .stays rfl rfl fun _ => rfl
  | next decides _ ih =>
    have hstep := step_of_decides decides
    rw [eraseDups_filterMap_cons _ hstep.asks?, Prompter.replies_append, ← hstep.state,
      List.zip_append (Prompter.replies_length ..).symm]
    exact (books_of_decides decides).trans ih

/-! ### What a name gets -/

/-- Where nothing had been booked before, a name gets the answer in its own reply. -/
theorem Books.known {k : Nat} {reply : Option String} (h : Books entries c c') (hanswers : c.answers = [])
    (hskipped : c.skipped = []) (hdistinct : (entries.map (·.1)).Nodup) (hentry : entries[k]? = some (trim raw, reply))
    (hunbound : c.has raw = false) (hnamed : trim raw ≠ "") : c'.known raw = answerIn reply := by
  have hmem : (trim raw, reply) ∈ entries := List.mem_of_getElem? hentry
  have hfree : c'.values.find? raw = none := has_eq_false_iff.1 ((h.has raw).trans hunbound)
  have honly : ∀ e ∈ entries, e.1 = trim raw → e = (trim raw, reply) := fun e he hname =>
    List.inj_on_of_nodup_map hdistinct he hmem hname
  rw [Context.known, hfree, h.answers, hanswers, h.skipped, hskipped, List.nil_append, List.nil_append]
  simp only
  cases hanswer : answerIn reply with
  | none =>
    have hdeclined : trim raw ∈ (entries.filter fun e => (answerIn e.2).isNone).map (·.1) :=
      List.mem_map.2 ⟨_, List.mem_filter.2 ⟨hmem, by rw [hanswer]; rfl⟩, rfl⟩
    rw [if_pos (.inr hdeclined)]
  | some answer =>
    have hkept : trim raw ∉ (entries.filter fun e => (answerIn e.2).isNone).map (·.1) := by
      intro hdeclined
      obtain ⟨e, he, hname⟩ := List.mem_map.1 hdeclined
      obtain ⟨hin, hnone⟩ := List.mem_filter.1 he
      rw [honly e hin hname, hanswer] at hnone
      cases hnone
    have htable : Table.Distinct (entries.filterMap fun e => (answerIn e.2).map (e.1, ·)) := by
      refine List.pairwise_filterMap.2 ((List.pairwise_map.1 hdistinct).imp fun {a b} hne x hx y hy => ?_)
      obtain ⟨_, -, rfl⟩ := Option.map_eq_some_iff.1 hx
      obtain ⟨_, -, rfl⟩ := Option.map_eq_some_iff.1 hy
      simpa using Ne.symm hne
    have hbooked : (trim raw, answer) ∈ entries.filterMap fun e => (answerIn e.2).map (e.1, ·) :=
      List.mem_filterMap.2 ⟨_, hmem, by rw [hanswer]; rfl⟩
    rw [if_neg (not_or.2 ⟨hnamed, hkept⟩)]
    exact Table.find?_of_distinct htable (trim raw, answer) hbooked

theorem Settled.known_bound (h : c.Settled raw) (hbound : c.has raw = true) : c.known raw = (c.resolve raw).1 := by
  cases hvalue : c.values.find? raw with
  | none =>
    rw [has_eq_false_iff.2 hvalue] at hbound
    cases hbound
  | some binding =>
    cases binding with
    | literal text => simp only [Context.known, resolve, hvalue]
    | computed producer =>
      have hruns : c.runs? raw = some (raw, producer) := runs?_eq_some_iff.2 ⟨rfl, hvalue⟩
      rw [h.runs] at hruns
      cases hruns

/-- Names that stand for nothing yet, trimmed and without blanks, in the order in which they come up in the texts. -/
def unknownNames (c : Context) (texts : List String) : List String :=
  (((texts.flatMap rawNames).filter fun raw => !c.has raw && trim raw ≠ "").map trim).eraseDups

theorem unknownNames_eq (texts : List String) (hanswers : c.answers = []) (hskipped : c.skipped = []) :
    c.unknownNames texts = ((texts.flatMap rawNames).filterMap c.asks?).eraseDups := by
  have hasks : ∀ raw, c.Asks raw ↔ c.has raw = false ∧ trim raw ≠ "" := fun raw =>
    ⟨fun h => ⟨has_eq_false_iff.2 h.unbound, h.named⟩,
      fun ⟨h, hnamed⟩ => ⟨has_eq_false_iff.1 h, hnamed, by simp [hskipped], by rw [hanswers]; rfl⟩⟩
  rw [filterMap_asks?, unknownNames]
  simp [hasks]

theorem known_of_blank (hunbound : c.has raw = false) (hblank : trim raw = "") : c.known raw = none := by
  rw [Context.known, has_eq_false_iff.1 hunbound]
  simp [hblank]

end Context

/-! ### The terminal -/

namespace Console

/-- Typed lines without the carriage returns and line feeds at their ends. -/
def typedLines (typed : List Char) : List String :=
  (cutAt '\n' typed).map fun line => String.ofList (dropEndWhile isLineEnd line.1)

/-- Nothing was printed as a result, and colours are on or off as before. -/
structure Quiet (c c' : Console) : Prop where
  out : c'.out = c.out
  color : c'.color = c.color

theorem quiet_ask (text : String) (c : Console) : Quiet c (ask text c).2 := by
  unfold ask
  split
  · exact ⟨rfl, rfl⟩
  · simp only
    split <;> exact ⟨rfl, rfl⟩

theorem quiet_after (names : List String) (c : Console) : Quiet c (prompter.after names c) := by
  induction names generalizing c with
  | nil => exact ⟨rfl, rfl⟩
  | cons name rest ih =>
    have hask := quiet_ask (question name) c
    have hrest := ih (prompter.ask (question name) c).2
    exact ⟨hrest.out.trans hask.out, hrest.color.trans hask.color⟩

theorem quiet_expandLines (lines : List String) (c : Context) (s : Console) :
    Quiet s (expandLines prompter lines c s).2.2 := by
  rw [(deciding_expandLines prompter lines c s).state_eq]
  exact quiet_after _ s

variable {c : Console} {typed : List Char}

theorem takeLine_open {line : List Char} (h : '\n' ∉ line) : takeLine line = (line, []) := by
  induction line with
  | nil => rfl
  | cons ch rest ih =>
    have hch : ch ≠ '\n' := fun he => h (by simp [he])
    rw [takeLine, if_neg hch, ih fun hm => h (List.mem_cons_of_mem _ hm)]

theorem takeLine_closed {line : List Char} (rest : List Char) (h : '\n' ∉ line) :
    takeLine (line ++ '\n' :: rest) = (line ++ ['\n'], rest) := by
  induction line with
  | nil => simp [takeLine]
  | cons ch more ih =>
    have hch : ch ≠ '\n' := fun he => h (by simp [he])
    rw [List.cons_append, takeLine, if_neg hch, ih fun hm => h (List.mem_cons_of_mem _ hm)]
    rfl

theorem dropEndWhile_feed (line : List Char) : dropEndWhile isLineEnd (line ++ ['\n']) = dropEndWhile isLineEnd line := by
  simp [dropEndWhile, isLineEnd]

theorem line_cases (typed : List Char) :
    typed = [] ∨ (typed ≠ [] ∧ '\n' ∉ typed) ∨ ∃ line rest, typed = line ++ '\n' :: rest ∧ '\n' ∉ line := by
  by_cases h : '\n' ∈ typed
  · obtain ⟨line, rest, rfl, hline⟩ := List.eq_append_cons_of_mem h
    exact .inr (.inr ⟨line, rest, rfl, hline⟩)
  · by_cases hne : typed = []
    · exact .inl hne
    · exact .inr (.inl ⟨hne, h⟩)

theorem ask_of_takeLine (text : String) {ch : Char} {line rest : List Char} (h : c.typed = some typed)
    (hline : takeLine typed = (ch :: line, rest)) :
    (ask text c).1 = some (String.ofList (dropEndWhile isLineEnd (ch :: line))) ∧ (ask text c).2.typed = some rest := by
  have hask : ask text c = (some (String.ofList (dropEndWhile isLineEnd (ch :: line))),
      { c.printError (Style.green.paint c.color text ++ " ") with typed := some rest }) := by
    simp only [ask, h, hline]
  rw [hask]
  exact ⟨rfl, rfl⟩

/-- A question takes the first line of what is typed and answers with it. Whatever is read next is cut into lines as if
it had been typed alone. -/
theorem ask_typed (text : String) (h : c.typed = some typed) :
    ∃ front rest, typed = front ++ rest ∧ (ask text c).2.typed = some rest ∧ (ask text c).1 = (typedLines typed)[0]? ∧
      ∀ more, more <+: rest → cutAt '\n' (front ++ more) = (cutAt '\n' typed).take 1 ++ cutAt '\n' more := by
  rcases line_cases typed with rfl | ⟨hne, hopen⟩ | ⟨line, rest, rfl, hline⟩
  · refine ⟨[], [], rfl, ?_, ?_, fun more hmore => by rw [List.prefix_nil.1 hmore]; rfl⟩
    · unfold ask
      rw [h]
      exact h
    · unfold ask
      rw [h]
      rfl
  · obtain ⟨ch, line, rfl⟩ := List.exists_cons_of_ne_nil hne
    obtain ⟨hanswer, hleft⟩ := ask_of_takeLine text h (takeLine_open hopen)
    refine ⟨ch :: line, [], by simp, hleft, ?_, fun more hmore => ?_⟩
    · rw [hanswer, typedLines, cutAt_open hopen hne]
      rfl
    · rw [List.prefix_nil.1 hmore, List.append_nil, cutAt_open hopen hne]
      rfl
  · obtain ⟨ch, first, hfirst⟩ := List.exists_cons_of_ne_nil (show line ++ ['\n'] ≠ [] by simp)
    have htaken : takeLine (line ++ '\n' :: rest) = (ch :: first, rest) := by rw [takeLine_closed rest hline, hfirst]
    obtain ⟨hanswer, hleft⟩ := ask_of_takeLine text h htaken
    refine ⟨line ++ ['\n'], rest, by simp, hleft, ?_, fun more _ => ?_⟩
    · rw [hanswer, ← hfirst, dropEndWhile_feed, typedLines, cutAt_closed rest hline]
      rfl
    · rw [List.append_assoc, List.singleton_append, cutAt_closed more hline, cutAt_closed rest hline]
      rfl

theorem ask_err (text : String) (h : c.typed = some typed) :
    (ask text c).2.err = c.err ++ (Style.green.paint c.color text ++ " ") := by
  unfold ask
  rw [h]
  simp only
  split <;> rfl

/-- Questions for the names have taken the first lines of what was typed, each one line, and left the rest. -/
structure Served (names : List String) (c : Console) (typed : List Char) : Prop where
  replies : ∀ k, k < names.length → (prompter.replies names c)[k]? = some (typedLines typed)[k]?
  asked : (prompter.after names c).err =
    c.err ++ String.join (names.map fun name => Style.green.paint c.color (question name) ++ " ")
  left : ∃ front rest, typed = front ++ rest ∧ (prompter.after names c).typed = some rest ∧
    cutAt '\n' front = (cutAt '\n' typed).take names.length ∧ cutAt '\n' rest = (cutAt '\n' typed).drop names.length

theorem served (names : List String) (h : c.typed = some typed) : Served names c typed := by
  induction names generalizing c typed with
  | nil => exact ⟨nofun, by simp [Prompter.after], [], typed, rfl, h, rfl, rfl⟩
  | cons name more ih =>
    obtain ⟨front, rest, rfl, hleft, hanswer, hcut⟩ := ask_typed (question name) h
    obtain ⟨hreplies, hasked, front', rest', rfl, hleft', hfront, hrest⟩ := ih hleft
    have hbehind : cutAt '\n' (front' ++ rest') = (cutAt '\n' (front ++ (front' ++ rest'))).drop 1 := by
      have hwhole := hcut (front' ++ rest') (List.prefix_refl _)
      exact (List.append_cancel_left ((List.take_append_drop 1 _).trans hwhole)).symm
    refine ⟨fun k hk => ?_, ?_, front ++ front', rest', by simp, hleft', ?_, ?_⟩
    · cases k with
      | zero => exact congrArg some hanswer
      | succ k =>
        have hk' : k < more.length := by simpa using hk
        refine (hreplies k hk').trans ?_
        rw [typedLines, hbehind, List.map_drop, List.getElem?_drop, Nat.add_comm 1 k]
        rfl
    · have hcolor : (ask (question name) c).2.color = c.color := (quiet_ask _ c).color
      refine hasked.trans ?_
      simp only [ask_err _ h, hcolor, List.map_cons, String.join_cons, String.append_assoc]
    · rw [hcut front' (List.prefix_append ..), hfront, hbehind, List.length_cons, Nat.add_comm more.length 1, List.take_add]
    · rw [hrest, hbehind, List.drop_drop, List.length_cons, Nat.add_comm 1]

/-- Without a terminal nothing is read and nothing printed. -/
theorem unserved (names : List String) (h : c.typed = none) :
    prompter.after names c = c ∧ ∀ reply ∈ prompter.replies names c, reply = none := by
  have hask (text : String) : prompter.ask text c = (none, c) := by
    change ask text c = (none, c)
    unfold ask
    rw [h]
  induction names with
  | nil => exact ⟨rfl, by simp [Prompter.replies]⟩
  | cons name rest ih =>
    have hafter : prompter.after (name :: rest) c = prompter.after rest (prompter.ask (question name) c).2 := rfl
    rw [hafter, Prompter.replies, hask]
    exact ⟨ih.1, List.forall_mem_cons.2 ⟨rfl, ih.2⟩⟩

end Console

/-! ### Texts -/

/-- Over texts that start with no answers and no declined names, the k-th unknown name is asked for in k-th place and gets
the k-th typed line. A name whose line is empty, or for which no line is left, stays. What is typed is read line by line
as far as there are names, and the rest stays. Without a terminal nothing is read or printed, and unknown names stay. -/
theorem expandLines_typed (texts : List String) (c : Context) (s : Console) (hanswers : c.answers = [])
    (hskipped : c.skipped = []) :
    let names := c.unknownNames texts
    let outs := (expandLines Console.prompter texts c s).1
    let c' := (expandLines Console.prompter texts c s).2.1
    let s' := (expandLines Console.prompter texts c s).2.2
    outs = texts.map (fill c'.known) ∧ names.Nodup ∧ s'.out = s.out ∧
      (expandLines Console.prompter.noted texts c (s, [])).2.2.2 = names.map question ∧
      (∀ raw ∈ texts.flatMap rawNames, c.has raw = true → c'.known raw = (c.resolve raw).1) ∧
      (∀ raw, c.has raw = false → trim raw = "" → c'.known raw = none) ∧
      (∀ typed, s.typed = some typed →
        (∀ (k : Nat) (raw : String), names[k]? = some (trim raw) → c.has raw = false →
          c'.known raw = ((Console.typedLines typed)[k]?).filter (· ≠ "")) ∧
        s'.err = s.err ++ String.join (names.map fun name => Style.green.paint s.color (question name) ++ " ") ∧
        ∃ front rest, typed = front ++ rest ∧ s'.typed = some rest ∧
          cutAt '\n' front = (cutAt '\n' typed).take names.length ∧
          cutAt '\n' rest = (cutAt '\n' typed).drop names.length) ∧
      (s.typed = none → s' = s ∧ ∀ raw ∈ texts.flatMap rawNames, c.has raw = false → c'.known raw = none) := by
  intro names outs c' s'
  have hrun : Deciding Console.prompter (texts.flatMap rawNames) c s c' s' := deciding_expandLines _ texts c s
  have hnames : names = ((texts.flatMap rawNames).filterMap c.asks?).eraseDups := c.unknownNames_eq texts hanswers hskipped
  have hbooks : Context.Books (names.zip (Console.prompter.replies names s)) c c' := hnames ▸ Context.books_of_deciding hrun
  have hstate : s' = Console.prompter.after names s := hnames ▸ hrun.state_eq
  have hdistinct : names.Nodup := eraseDups_nodup _
  have hmem {raw : String} : trim raw ∈ names → trim raw ≠ "" := by
    intro h
    obtain ⟨other, hother, heq⟩ := List.mem_map.1 (List.mem_eraseDups.1 h)
    have hfilter := (List.mem_filter.1 hother).2
    rw [← heq]
    simpa using (Bool.and_eq_true_iff.1 hfilter).2
  have hlength := Console.prompter.replies_length names s
  -- the k-th entry of the zipped list is the k-th name with its reply
  have hgets {k : Nat} {raw : String} {reply : Option String} (hname : names[k]? = some (trim raw))
      (hreply : (Console.prompter.replies names s)[k]? = some reply) (hunbound : c.has raw = false) :
      c'.known raw = answerIn reply := by
    refine hbooks.known hanswers hskipped ?_ (List.getElem?_zip_eq_some.2 ⟨hname, hreply⟩) hunbound
      (hmem (List.mem_of_getElem? hname))
    rwa [List.map_fst_zip (Nat.le_of_eq hlength.symm)]
  have hblank : ∀ raw, c.has raw = false → trim raw = "" → c'.known raw = none := fun raw hunbound htrim =>
    Context.known_of_blank ((hbooks.has raw).trans hunbound) htrim
  refine ⟨expandLines_eq_fill _ texts c s (.refl _), hdistinct, (Console.quiet_expandLines texts c s).out, ?_,
    fun raw hraw hbound => ?_, hblank, fun typed htyped => ?_, fun hclosed => ?_⟩
  · rw [(deciding_expandLines Console.prompter.noted texts c (s, [])).state_eq, Prompter.noted_after, List.nil_append,
      hnames]
  · exact ((hrun.settled raw hraw).known_bound ((hbooks.has raw).trans hbound)).trans (hbooks.bound raw)
  · have hserved := Console.served names htyped
    refine ⟨fun k raw hname hunbound => ?_, hstate ▸ hserved.asked, hstate ▸ hserved.left⟩
    have hk : k < names.length := (List.getElem?_eq_some_iff.1 hname).1
    exact hgets hname (hserved.replies k hk) hunbound
  · obtain ⟨hsame, hsilent⟩ := Console.unserved names hclosed
    refine ⟨hstate.trans hsame, fun raw hraw hunbound => ?_⟩
    by_cases htrim : trim raw = ""
    · exact hblank raw hunbound htrim
    · have hname : trim raw ∈ names := by
        refine List.mem_eraseDups.2 (List.mem_map.2 ⟨raw, List.mem_filter.2 ⟨hraw, ?_⟩, rfl⟩)
        simp [hunbound, htrim]
      obtain ⟨k, hk⟩ := List.mem_iff_getElem?.1 hname
      have hlt : k < (Console.prompter.replies names s).length := by
        rw [hlength]
        exact (List.getElem?_eq_some_iff.1 hk).1
      have hreply := hsilent _ (List.getElem_mem hlt)
      rw [hgets hk (List.getElem?_eq_getElem hlt) hunbound, hreply]
      rfl

/-- A line that ends in carriage returns, one without anything else, and none left for the third name. A bound name is
not asked for, whatever its value looks like. -/
theorem expandLines_typed_short :
    let texts := ["\x7b\x7b a \x7d\x7d-\x7b\x7bb\x7d\x7d",
      "\x7b\x7bt\x7d\x7d \x7b\x7ba\x7d\x7d\x7b\x7bc\x7d\x7d\x7b\x7b \x7d\x7d"]
    let c := ({} : Context).bind "t" (.literal "\x7b\x7bb\x7d\x7d")
    let s : Console := { typed := some "x\r\r\n\r\n".toList }
    c.answers = [] ∧ c.skipped = [] ∧ c.unknownNames texts = ["a", "b", "c"] ∧
      (expandLines Console.prompter texts c s).1 =
        ["x-\x7b\x7bb\x7d\x7d", "\x7b\x7bb\x7d\x7d x\x7b\x7bc\x7d\x7d\x7b\x7b \x7d\x7d"] ∧
      (expandLines Console.prompter.noted texts c (s, [])).2.2.2 = ["a", "b", "c"].map question := by
  intro texts c s
  have hnames : c.unknownNames texts = ["a", "b", "c"] := by decide +kernel
  obtain ⟨-, -, -, hasked, -⟩ := expandLines_typed texts c s rfl rfl
  rw [hnames] at hasked
  exact ⟨rfl, rfl, hnames, by decide +kernel, hasked⟩

end NoteStencil
