import NoteStencil.Expansion

/-! What expanding a text comes to, told by places in the text. Tokens are taken from the left, the search goes on behind
each, and the context and the prompt go from one token to the next. Scanning and then putting in values does this
and nothing else. -/

namespace NoteStencil

/-! ### Where tokens are -/

/-- Two opening braces at `i`; the first closing brace behind them stands at `j`, with another one behind it and a name
before it. -/
structure TokenAt (text : List Char) (i j : Nat) : Prop where
  opens : text[i]? = some '{' ∧ text[i + 1]? = some '{'
  named : i + 2 < j
  first : ∀ k, i + 2 ≤ k → k < j → text[k]? ≠ some '}'
  closes : text[j]? = some '}' ∧ text[j + 1]? = some '}'

/-- The name between the braces, as it is written. -/
def nameAt (text : List Char) (i j : Nat) : String := String.ofList ((text.drop (i + 2)).take (j - (i + 2)))

/-- The token with its braces. -/
def tokenAt (text : List Char) (i j : Nat) : List Char := (text.drop i).take (j + 2 - i)

structure Leftmost (text : List Char) (i j : Nat) : Prop where
  token : TokenAt text i j
  least : ∀ i' j', i' < i → ¬ TokenAt text i' j'

def Tokenless (text : List Char) : Prop := ∀ i j, ¬ TokenAt text i j

theorem tokenAt_cons_iff {c : Char} {rest : List Char} {i j : Nat} :
    TokenAt (c :: rest) (i + 1) (j + 1) ↔ TokenAt rest i j := by
  constructor
  · rintro ⟨hopens, hnamed, hfirst, hcloses⟩
    exact ⟨hopens, by omega, fun k hk hj => hfirst (k + 1) (by omega) (by omega), hcloses⟩
  · rintro ⟨hopens, hnamed, hfirst, hcloses⟩
    refine ⟨hopens, by omega, fun k hk hj => ?_, hcloses⟩
    obtain ⟨k, rfl⟩ := Nat.exists_eq_add_one_of_ne_zero (show k ≠ 0 by omega)
    exact hfirst k (by omega) (by omega)

theorem TokenAt.of_cons {c : Char} {rest : List Char} {i j : Nat} (h : TokenAt (c :: rest) (i + 1) j) :
    TokenAt rest i (j - 1) := by
  have hnamed := h.named
  obtain ⟨j, rfl⟩ := Nat.exists_eq_add_one_of_ne_zero (show j ≠ 0 by omega)
  exact tokenAt_cons_iff.1 h

theorem drop_of_getElem? {xs : List α} {j : Nat} {a : α} (h : xs[j]? = some a) : xs.drop j = a :: xs.drop (j + 1) := by
  obtain ⟨hj, rfl⟩ := List.getElem?_eq_some_iff.1 h
  exact List.drop_eq_getElem_cons hj

theorem getElem?_brace {name rest : List Char} {k : Nat} (h : '}' ∉ name) :
    (name ++ '}' :: rest)[k]? = some '}' → name.length ≤ k := by
  refine fun hk => Nat.le_of_not_lt fun hlt => h ?_
  rw [List.getElem?_append_left hlt] at hk
  exact List.mem_of_getElem? hk

/-- A token is a name of the right kind between its braces. -/
theorem tokenAt_zero_iff {text : List Char} {j : Nat} :
    TokenAt text 0 j ↔ ∃ name rest, text = '{' :: '{' :: (name ++ '}' :: '}' :: rest) ∧ name ≠ [] ∧ '}' ∉ name ∧
      j = name.length + 2 := by
  constructor
  · rintro ⟨hopens, hnamed, hfirst, hcloses⟩
    match text with
    | [] => cases hopens.1
    | [a] => cases hopens.2
    | a :: b :: rest =>
      obtain ⟨j, rfl⟩ := Nat.exists_eq_add_of_le' (show 2 ≤ j by omega)
      simp only [List.getElem?_cons_zero, List.getElem?_cons_succ, Option.some.injEq] at hopens hcloses
      obtain ⟨rfl, rfl⟩ := hopens
      have hlength : (rest.take j).length = j := by
        have := (List.getElem?_eq_some_iff.1 hcloses.1).1
        rw [List.length_take]
        omega
      have hrest : rest = rest.take j ++ '}' :: '}' :: rest.drop (j + 2) := by
        rw [← drop_of_getElem? hcloses.2, ← drop_of_getElem? hcloses.1, List.take_append_drop]
      refine ⟨rest.take j, rest.drop (j + 2), by rw [← hrest], fun hnil => ?_, fun hmem => ?_, by rw [hlength]⟩
      · rw [hnil] at hlength
        simp at hlength
        omega
      · obtain ⟨k, hk⟩ := List.mem_iff_getElem?.1 hmem
        have hlt : k < j := by
          have := (List.getElem?_eq_some_iff.1 hk).1
          omega
        rw [List.getElem?_take_of_lt hlt] at hk
        exact hfirst (k + 2) (by omega) (by omega) hk
  · rintro ⟨name, rest, rfl, hne, hclear, rfl⟩
    have hpos := List.length_pos_iff.2 hne
    refine ⟨⟨rfl, rfl⟩, by omega, fun k hk hj hbrace => ?_, by simp, by simp⟩
    obtain ⟨k, rfl⟩ := Nat.exists_eq_add_of_le' (show 2 ≤ k by omega)
    have := getElem?_brace hclear hbrace
    omega

theorem tokenName?_eq_some_iff {text name : List Char} :
    tokenName? text = some name ↔
      name ≠ [] ∧ '}' ∉ name ∧ ∃ rest, text = '{' :: '{' :: (name ++ '}' :: '}' :: rest) := by
  constructor
  · intro h
    unfold tokenName? at h
    split at h
    · next rest =>
      split at h
      · next c more after htake hdrop =>
        cases h
        refine ⟨by simp, fun hmem => ?_, after, ?_⟩
        · rw [← htake] at hmem
          simpa using List.all_eq_true.1 List.all_takeWhile _ hmem
        · rw [← htake, ← hdrop, List.takeWhile_append_dropWhile]
      · cases h
    · cases h
  · rintro ⟨hne, hclear, rest, rfl⟩
    have hall : ∀ c ∈ name, (decide (c ≠ '}')) = true := fun c hc => by
      simpa using fun he : c = '}' => hclear (he ▸ hc)
    unfold tokenName?
    simp only [List.takeWhile_append_of_pos hall, List.dropWhile_append_of_pos hall]
    obtain ⟨c, more, rfl⟩ := List.exists_cons_of_ne_nil hne
    simp

theorem tokenless_nil : Tokenless [] := fun _ _ h => by cases h.opens.1

theorem tokenless_or_leftmost (text : List Char) : Tokenless text ∨ ∃ i j, Leftmost text i j := by
  induction text with
  | nil => exact .inl tokenless_nil
  | cons c rest ih =>
    by_cases hzero : ∃ j, TokenAt (c :: rest) 0 j
    · obtain ⟨j, hj⟩ := hzero
      exact .inr ⟨0, j, hj, nofun⟩
    · -- the first character opens no token, so the leftmost is the rest's
      rcases ih with hnone | ⟨i, j, htoken, hleast⟩
      · refine .inl fun i j h => ?_
        cases i with
        | zero => exact hzero ⟨j, h⟩
        | succ i => exact hnone i (j - 1) h.of_cons
      · refine .inr ⟨i + 1, j + 1, tokenAt_cons_iff.2 htoken, fun i' j' hlt h => ?_⟩
        cases i' with
        | zero => exact hzero ⟨j', h⟩
        | succ i' => exact hleast i' (j' - 1) (by omega) h.of_cons

theorem TokenAt.unique {text : List Char} {i j j' : Nat} (h : TokenAt text i j) (h' : TokenAt text i j') : j = j' := by
  rcases Nat.lt_trichotomy j j' with hlt | heq | hlt
  · have := h.named
    exact absurd h.closes.1 (h'.first j (by omega) hlt)
  · exact heq
  · have := h'.named
    exact absurd h'.closes.1 (h.first j' (by omega) hlt)

theorem Leftmost.unique {text : List Char} {i j i' j' : Nat} (h : Leftmost text i j) (h' : Leftmost text i' j') :
    i = i' ∧ j = j' := by
  have hi : i = i' := by
    rcases Nat.lt_trichotomy i i' with hlt | heq | hlt
    · exact absurd h.token (h'.least i j hlt)
    · exact heq
    · exact absurd h'.token (h.least i' j' hlt)
  subst hi
  exact ⟨rfl, h.token.unique h'.token⟩

/-! ### Scanning -/

theorem scan_cons_none {c : Char} {rest : List Char} (h : ∀ j, ¬ TokenAt (c :: rest) 0 j) :
    scan (c :: rest) = .text c :: scan rest := by
  have hnone : tokenName? (c :: rest) = none := by
    cases hname : tokenName? (c :: rest) with
    | none => rfl
    | some name =>
      obtain ⟨hne, hclear, rest, heq⟩ := tokenName?_eq_some_iff.1 hname
      exact absurd (tokenAt_zero_iff.2 ⟨name, rest, heq, hne, hclear, rfl⟩) (h _)
  rw [scan, hnone]

theorem scan_token {text : List Char} {j : Nat} (h : TokenAt text 0 j) :
    scan text = .token (nameAt text 0 j) :: scan (text.drop (j + 2)) := by
  obtain ⟨name, rest, rfl, hne, hclear, rfl⟩ := tokenAt_zero_iff.1 h
  have hname := tokenName?_eq_some_iff.2 ⟨hne, hclear, rest, rfl⟩
  rw [scan, hname]
  simp [nameAt]

theorem scan_of_tokenless {text : List Char} (h : Tokenless text) : scan text = text.map .text := by
  induction text with
  | nil => simp [scan]
  | cons c rest ih =>
    rw [scan_cons_none (h 0), ih fun i j hij => h (i + 1) (j + 1) (tokenAt_cons_iff.2 hij), List.map_cons]

theorem scan_of_leftmost {text : List Char} {i j : Nat} (h : Leftmost text i j) :
    scan text = (text.take i).map .text ++ .token (nameAt text i j) :: scan (text.drop (j + 2)) := by
  induction i generalizing text j with
  | zero => exact scan_token h.token
  | succ i ih =>
    cases text with
    | nil => cases h.token.opens.1
    | cons c rest =>
      have hnamed := h.token.named
      obtain ⟨j, rfl⟩ := Nat.exists_eq_add_one_of_ne_zero (show j ≠ 0 by omega)
      have hrest : Leftmost rest i j :=
        ⟨tokenAt_cons_iff.1 h.token, fun i' j' hlt h' => h.least (i' + 1) (j' + 1) (by omega) (tokenAt_cons_iff.2 h')⟩
      rw [scan_cons_none fun j' => h.least 0 j' (by omega), ih hrest]
      simp [nameAt, show j + 1 - (i + 1 + 2) = j - (i + 2) by omega]

/-! ### What becomes of a token -/

variable {σ : Type}

/-- A name for which the prompt has to be asked: nothing is bound to it as it is written, and trimmed it is no blank
and was neither declined nor answered. -/
structure Context.Asks (c : Context) (raw : String) : Prop where
  unbound : c.values.find? raw = none
  named : trim raw ≠ ""
  undeclined : trim raw ∉ c.skipped
  unanswered : c.answers.find? (trim raw) = none

/-- The value that a name gets as it is written `raw`, if it gets one, and the context and the prompt afterwards. -/
inductive Decides (p : Prompter σ) (raw : String) (c : Context) (s : σ) : Option String → Context → σ → Prop
  | literal {text : String} (bound : c.values.find? raw = some (.literal text)) : Decides p raw c s (some text) c s
  | computed {producer : Producer} (bound : c.values.find? raw = some (.computed producer)) :
      Decides p raw c s (some producer.run)
        { c with values := c.values.put raw (.literal producer.run), runs := c.runs ++ [(raw, producer)] } s
  | passed (unbound : c.values.find? raw = none) (passes : trim raw = "" ∨ trim raw ∈ c.skipped) :
      Decides p raw c s none c s
  | recalled {answer : String} (unbound : c.values.find? raw = none) (named : trim raw ≠ "")
      (undeclined : trim raw ∉ c.skipped) (answered : c.answers.find? (trim raw) = some answer) :
      Decides p raw c s (some answer) c s
  | given {answer : String} {s' : σ} (asks : c.Asks raw)
      (reply : p.ask (question (trim raw)) s = (some answer, s')) (some_text : answer ≠ "") :
      Decides p raw c s (some answer) { c with answers := c.answers.put (trim raw) answer } s'
  | declined {answer : Option String} {s' : σ} (asks : c.Asks raw)
      (reply : p.ask (question (trim raw)) s = (answer, s')) (no_text : answer = none ∨ answer = some "") :
      Decides p raw c s none { c with skipped := c.skipped ++ [trim raw] } s'

variable {p : Prompter σ} {raw : String} {c c' : Context} {s s' : σ} {value : Option String}

theorem Context.skip_of_not_mem {name : String} (h : name ∉ c.skipped) :
    c.skip name = { c with skipped := c.skipped ++ [name] } := by
  rw [Context.skip, if_neg h]

theorem valueFor_bound {text : String} (h : c.resolve raw = (some text, c')) : valueFor p raw c s = (some text, c', s) := by
  rw [valueFor, h]

theorem valueFor_unbound (h : c.values.find? raw = none) :
    valueFor p raw c s =
      if trim raw = "" ∨ c.isSkipped (trim raw) then (none, c, s)
      else match c.answer (trim raw) with
        | some value => (some value, c, s)
        | none => askFor p (trim raw) c s := by
  have hresolve : c.resolve raw = (none, c) := by simp only [Context.resolve, h]
  unfold valueFor
  split
  · next heq =>
    rw [hresolve] at heq
    cases heq
  · rfl

theorem valueFor_asks (h : c.Asks raw) : valueFor p raw c s = askFor p (trim raw) c s := by
  rw [valueFor_unbound h.unbound, if_neg (by simp [Context.isSkipped, h.named, h.undeclined]), Context.answer, h.unanswered]

theorem decides_askFor (h : c.Asks raw) :
    Decides p raw c s (askFor p (trim raw) c s).1 (askFor p (trim raw) c s).2.1 (askFor p (trim raw) c s).2.2 := by
  unfold askFor
  rw [Context.skip_of_not_mem h.undeclined]
  cases hreply : p.ask (question (trim raw)) s with
  | mk answer s' =>
    cases answer with
    | none => exact .declined h hreply (.inl rfl)
    | some answer =>
      by_cases hblank : answer = ""
      · simp only [if_pos hblank]
        exact .declined h hreply (.inr (by rw [hblank]))
      · simp only [if_neg hblank]
        exact .given h hreply hblank

theorem decides_valueFor (p : Prompter σ) (raw : String) (c : Context) (s : σ) :
    Decides p raw c s (valueFor p raw c s).1 (valueFor p raw c s).2.1 (valueFor p raw c s).2.2 := by
  cases hbound : c.values.find? raw with
  | some binding =>
    cases binding with
    | literal text =>
      have hresolve : c.resolve raw = (some text, c) := by simp only [Context.resolve, hbound]
      rw [valueFor_bound hresolve]
      exact .literal hbound
    | computed producer =>
      rw [valueFor_bound (by simp only [Context.resolve, hbound]; rfl)]
      exact .computed hbound
  | none =>
    by_cases hpass : trim raw = "" ∨ trim raw ∈ c.skipped
    · rw [valueFor_unbound hbound, if_pos (by simpa [Context.isSkipped] using hpass)]
      exact .passed hbound hpass
    · obtain ⟨hnamed, hkept⟩ := not_or.1 hpass
      cases hanswer : c.answers.find? (trim raw) with
      | none =>
        have hasks : c.Asks raw := ⟨hbound, hnamed, hkept, hanswer⟩
        rw [valueFor_asks hasks]
        exact decides_askFor hasks
      | some answer =>
        rw [valueFor_unbound hbound, if_neg (by simpa [Context.isSkipped] using hpass), Context.answer, hanswer]
        exact .recalled hbound hnamed hkept hanswer

theorem Decides.valueFor_eq (h : Decides p raw c s value c' s') : valueFor p raw c s = (value, c', s') := by
  cases h with
  | literal hbound => exact valueFor_bound (by simp only [Context.resolve, hbound])
  | computed hbound => exact valueFor_bound (by simp only [Context.resolve, hbound])
  | passed hbound hpass => rw [valueFor_unbound hbound, if_pos (by simpa [Context.isSkipped] using hpass)]
  | recalled hbound hnamed hkept hanswer =>
    rw [valueFor_unbound hbound, if_neg (by simp [Context.isSkipped, hnamed, hkept]), Context.answer, hanswer]
  | given hasks hreply hne =>
    simp only [valueFor_asks hasks, askFor, hreply, if_neg hne]
    rfl
  | declined hasks hreply hblank =>
    simp only [valueFor_asks hasks, askFor, hreply, Context.skip_of_not_mem hasks.undeclined]
    rcases hblank with rfl | rfl
    · rfl
    · simp

/-! ### Whole texts -/

/-- A text without tokens stays. In any other the leftmost token is decided upon, and what stands behind it is expanded
with what that leaves of the context and the prompt. A token without value stays as it is. -/
inductive Expanded (p : Prompter σ) : List Char → Context → σ → List Char → Context → σ → Prop
  | rest {text : List Char} {c : Context} {s : σ} (tokenless : Tokenless text) : Expanded p text c s text c s
  | token {text out : List Char} {i j : Nat} {value : Option String} {c c' c'' : Context} {s s' s'' : σ}
      (leftmost : Leftmost text i j) (decides : Decides p (nameAt text i j) c s value c' s')
      (behind : Expanded p (text.drop (j + 2)) c' s' out c'' s'') :
      Expanded p text c s (text.take i ++ (value.elim (tokenAt text i j) String.toList) ++ out) c'' s''

theorem TokenAt.at_front {text : List Char} {i j : Nat} (h : TokenAt text i j) :
    TokenAt (text.drop i) 0 (j - i) := by
  have hnamed := h.named
  refine ⟨by simpa using h.opens, by omega, fun k hk hj => ?_, ?_⟩
  · rw [List.getElem?_drop]
    exact h.first (i + k) (by omega) (by omega)
  · rw [List.getElem?_drop, List.getElem?_drop, show i + (j - i) = j by omega, show i + (j - i + 1) = j + 1 by omega]
    exact h.closes

theorem tokenText_nameAt {text : List Char} {i j : Nat} (h : TokenAt text i j) :
    (tokenText (nameAt text i j)).toList = tokenAt text i j := by
  obtain ⟨name, rest, heq, -, -, hj⟩ := tokenAt_zero_iff.1 h.at_front
  have hnamed := h.named
  rw [nameAt, tokenAt, Nat.add_comm i 2, Nat.add_comm 2 i, ← List.drop_drop, heq, show j - (i + 2) = name.length by omega,
    show j + 2 - i = name.length + 4 by omega]
  have hname : name.take (name.length + 2) = name := List.take_of_length_le (by omega)
  simp [tokenText, List.take_append, hname]

theorem expandPieces_text (p : Prompter σ) (text : List Char) (pieces : List Piece) (c : Context) (s : σ) :
    expandPieces p (text.map .text ++ pieces) c s =
      (text ++ (expandPieces p pieces c s).1, (expandPieces p pieces c s).2) := by
  induction text with
  | nil => rfl
  | cons ch rest ih => simp only [List.map_cons, List.cons_append, expandPieces, ih]

theorem expandPieces_tokenless {text : List Char} (h : Tokenless text) (p : Prompter σ) (c : Context) (s : σ) :
    expandPieces p (scan text) c s = (text, c, s) := by
  have hpieces := expandPieces_text p text [] c s
  rw [List.append_nil] at hpieces
  rw [scan_of_tokenless h, hpieces]
  simp [expandPieces]

theorem expandPieces_leftmost {text : List Char} {i j : Nat} (h : Leftmost text i j)
    (decides : Decides p (nameAt text i j) c s value c' s') :
    expandPieces p (scan text) c s =
      (text.take i ++ value.elim (tokenAt text i j) String.toList ++ (expandPieces p (scan (text.drop (j + 2))) c' s').1,
        (expandPieces p (scan (text.drop (j + 2))) c' s').2) := by
  have hshown : (value.getD (tokenText (nameAt text i j))).toList = value.elim (tokenAt text i j) String.toList := by
    cases value with
    | none => exact tokenText_nameAt h.token
    | some value => rfl
  rw [scan_of_leftmost h, expandPieces_text, expandPieces, decides.valueFor_eq]
  simp only [hshown, List.append_assoc]

theorem expanded_expandPieces (p : Prompter σ) (text : List Char) (c : Context) (s : σ) :
    Expanded p text c s (expandPieces p (scan text) c s).1 (expandPieces p (scan text) c s).2.1
      (expandPieces p (scan text) c s).2.2 := by
  induction hn : text.length using Nat.strongRecOn generalizing text c s with
  | ind n ih =>
    rcases tokenless_or_leftmost text with hnone | ⟨i, j, hleft⟩
    · rw [expandPieces_tokenless hnone]
      exact .rest hnone
    · have hdecides := decides_valueFor p (nameAt text i j) c s
      have hj := (List.getElem?_eq_some_iff.1 hleft.token.closes.1).1
      rw [expandPieces_leftmost hleft hdecides]
      refine .token hleft hdecides (ih (text.drop (j + 2)).length ?_ _ _ _ rfl)
      rw [List.length_drop]
      omega

theorem Expanded.expandPieces_eq {text out : List Char} (h : Expanded p text c s out c' s') :
    expandPieces p (scan text) c s = (out, c', s') := by
  induction h with
  | rest hnone => exact expandPieces_tokenless hnone _ _ _
  | token hleft hdecides _ ih => rw [expandPieces_leftmost hleft hdecides, ih]

theorem expand_of_expandPieces {text : String} {out : List Char} (h : expandPieces p (scan text.toList) c s = (out, c', s')) :
    expand p text c s = (String.ofList out, c', s') := by
  rw [expand, h]

/-- A text expands to what the rule for its tokens gives, and to nothing else. One without tokens stays, with the context
and the prompt. What was answered does not matter to a name that is bound. -/
theorem expand_eq_iff (p : Prompter σ) (text : String) (c : Context) (s : σ) :
    (∀ out c' s', expand p text c s = (out, c', s') ↔ Expanded p text.toList c s out.toList c' s') ∧
      (Tokenless text.toList → expand p text c s = (text, c, s)) ∧
      ∀ raw answers, c.has raw = true →
        ∃ value, (valueFor p raw { c with answers } s).1 = some value ∧ (c.resolve raw).1 = some value ∧
          (valueFor p raw { c with answers } s).2.2 = s := by
  refine ⟨fun out c' s' => ⟨fun h => ?_, fun h => ?_⟩, fun h => ?_, fun raw answers hbound => ?_⟩
  · have hexpanded := expanded_expandPieces p text.toList c s
    rw [expand_of_expandPieces rfl] at h
    obtain ⟨rfl, rfl, rfl⟩ : _ ∧ _ ∧ _ := by simpa only [Prod.mk.injEq] using h
    rwa [String.toList_ofList]
  · rw [expand_of_expandPieces h.expandPieces_eq, String.ofList_toList]
  · rw [expand_of_expandPieces (expandPieces_tokenless h p c s), String.ofList_toList]
  · obtain ⟨binding, hbinding⟩ := Option.isSome_iff_exists.1 (hbound : (c.values.find? raw).isSome = true)
    cases binding with
    | literal text =>
      have hanswers : ({ c with answers } : Context).values.find? raw = some (.literal text) := hbinding
      rw [(Decides.literal hanswers).valueFor_eq]
      exact ⟨text, rfl, by simp only [Context.resolve, hbinding], rfl⟩
    | computed producer =>
      have hanswers : ({ c with answers } : Context).values.find? raw = some (.computed producer) := hbinding
      rw [(Decides.computed hanswers).valueFor_eq]
      exact ⟨producer.run, rfl, by simp only [Context.resolve, hbinding], rfl⟩

/-- Braces that open no token stay, and those that do not close one. The first name, `\x7ba`, is bound; the second is
trimmed, asked for and declined. -/
theorem expanded_braces :
    let c : Context := ({} : Context).bind "\x7ba" (.literal "\x7b\x7bb\x7d\x7d")
    Expanded (.silent Unit) "-\x7b\x7b\x7ba\x7d\x7d\x7b\x7ba\x7db\x7d\x7d\x7b\x7b \x7b\x7ba\x7d\x7d".toList c ()
      "-\x7b\x7bb\x7d\x7d\x7b\x7ba\x7db\x7d\x7d\x7b\x7b \x7b\x7ba\x7d\x7d".toList { c with skipped := ["\x7b\x7ba"] } () :=
  ((expand_eq_iff _ _ _ _).1 _ _ _).1 (by decide +kernel)

end NoteStencil
