import NoteStencil.Toml.Token
import NoteStencil.Toml.Written

/-! Texts between quotes come back as they were, whichever quotes were chosen for them. On one line every character is read by
itself. In a block a few quotes may stand side by side, but never three before the end. -/

namespace NoteStencil
namespace Toml

variable {quote c d : Char} {isBlock : Bool} {spelled text tail : List Char} {n : Nat}

/-- Characters that are read as one character of a text, whatever follows them. -/
def Spells (quote : Char) (isBlock : Bool) (spelled : List Char) (c : Char) : Prop :=
  ∀ rest, readText quote isBlock (spelled ++ rest) =
    (readText quote isBlock rest).map fun (text, n) => (c :: text, n + spelled.length)

/-! ### Characters -/

/-- A character that stands for itself. -/
theorem spells_self (hquote : c ≠ quote) (hslash : ¬ (c = '\\' ∧ quote = '"'))
    (hplain : isPlain c = true ∨ (isBlock = true ∧ c = '\n')) : Spells quote isBlock [c] c := by
  intro rest
  have hread : (isPlain c || (isBlock && isBreakPart c rest)) = true := by
    rcases hplain with hplain | ⟨rfl, rfl⟩
    · rw [hplain, Bool.true_or]
    · rfl
  rw [List.singleton_append, readText, if_neg hquote, if_neg hslash, if_pos hread]
  rfl

/-- A backslash with a letter behind it does not end a line, so it opens an escape. -/
theorem endsLine_letter {letter : Char} (rest : List Char) (hgap : isGap letter = false) (hfeed : letter ≠ '\n')
    (hreturn : letter ≠ '\r') : endsLine (letter :: rest) = false := by
  rw [endsLine, List.dropWhile_cons, hgap, if_neg Bool.false_ne_true, breakLength]
  · rfl
  · intro more he
    exact hfeed (List.cons.inj he).1
  · intro more he
    exact hreturn (List.cons.inj he).1

theorem spells_escape {letter : Char} {more : List Char} (hgap : isGap letter = false) (hfeed : letter ≠ '\n')
    (hreturn : letter ≠ '\r') (hread : ∀ rest, escape? (letter :: more ++ rest) = some (d, more.length + 1)) :
    Spells '"' isBlock ('\\' :: letter :: more) d := by
  intro rest
  have hends : endsLine (letter :: more ++ rest) = false := endsLine_letter (more ++ rest) hgap hfeed hreturn
  have hrest : (letter :: more ++ rest).drop (more.length + 1) = rest := List.drop_left' rfl
  rw [List.cons_append, readText, if_neg (by decide), if_pos ⟨rfl, rfl⟩, hends, Bool.and_false, if_neg Bool.false_ne_true,
    hread]
  simp only [hrest]
  rfl

theorem spells_letter {letter : Char} (hletter : escapeLetter letter = some d) (hwidth : escapeWidth letter = 0)
    (hgap : isGap letter = false) (hfeed : letter ≠ '\n') (hreturn : letter ≠ '\r') :
    Spells '"' isBlock ['\\', letter] d := by
  refine spells_escape hgap hfeed hreturn ?_
  intro rest
  rw [List.singleton_append, escape?, if_pos hwidth, hletter]
  rfl

/-- Controls have two hexadecimal digits, and zeros before them. -/
theorem upperHex_control : ∀ n, n < 0x80 → (n < 0x20 ∨ n = 0x7F) →
    (upperHex 4 n).length = 4 ∧ natural? 16 (upperHex 4 n) = some n ∧ codePoint? n = some (Char.ofNat n) := by
  decide

theorem spells_digits (h : c.toNat < 0x20 ∨ c.toNat = 0x7F) :
    Spells '"' isBlock ('\\' :: 'u' :: upperHex 4 c.toNat) c := by
  obtain ⟨hlength, hnatural, hpoint⟩ := upperHex_control c.toNat (by omega) h
  refine spells_escape (by decide) (by decide) (by decide) ?_
  intro rest
  have htake : (upperHex 4 c.toNat ++ rest).take 4 = upperHex 4 c.toNat := List.take_left' hlength
  have hlong : ¬ (upperHex 4 c.toNat ++ rest).length < 4 := by
    rw [List.length_append, hlength]
    omega
  rw [List.cons_append, escape?]
  simp only [show escapeWidth 'u' = 4 from rfl, htake, hlong, hnatural, Option.bind_some, hpoint, Char.ofNat_toNat, hlength]
  rfl

/-- Every character has a spelling between double quotes. -/
theorem spells_escaped (c : Char) : Spells '"' isBlock (escaped c) c := by
  unfold escaped
  split
  · exact spells_letter rfl rfl rfl (by decide) (by decide)
  · exact spells_letter rfl rfl rfl (by decide) (by decide)
  · exact spells_letter rfl rfl rfl (by decide) (by decide)
  · exact spells_letter rfl rfl rfl (by decide) (by decide)
  · exact spells_letter rfl rfl rfl (by decide) (by decide)
  · exact spells_letter rfl rfl rfl (by decide) (by decide)
  · exact spells_letter rfl rfl rfl (by decide) (by decide)
  · next hb ht hn hf hr hquote hslash =>
    split
    · next hcontrol => exact spells_digits hcontrol
    · next hcontrol =>
      refine spells_self hquote (fun h => hslash h.1) (.inl ?_)
      simp only [isPlain, Bool.or_eq_true, Bool.and_eq_true, decide_eq_true_eq]
      right
      omega

/-! ### Texts of one line -/

theorem readText_spelled {spelling : Char → List Char} (h : ∀ c ∈ text, Spells quote isBlock (spelling c) c) (rest : List Char) :
    readText quote isBlock (text.flatMap spelling ++ rest) =
      (readText quote isBlock rest).map fun (more, n) => (text ++ more, n + (text.flatMap spelling).length) := by
  induction text with
  | nil => simp
  | cons c text ih =>
    obtain ⟨hc, htext⟩ := List.forall_mem_cons.1 h
    rw [List.flatMap_cons, List.append_assoc, hc, ih htext, Option.map_map, List.length_append]
    congr 1
    funext ⟨more, n⟩
    simp only [Function.comp_apply, List.cons_append]
    rw [Nat.add_assoc, Nat.add_comm (text.flatMap spelling).length]

theorem readText_line {spelling : Char → List Char} (h : ∀ c ∈ text, Spells quote false (spelling c) c) (tail : List Char) :
    readText quote false (text.flatMap spelling ++ quote :: tail) = some (text, (text.flatMap spelling).length + 1) := by
  have hclosing : readText quote false (quote :: tail) = some ([], 1) := by
    rw [readText, if_pos rfl, if_neg Bool.false_ne_true]
  rw [readText_spelled h, hclosing]
  simp [Nat.add_comm]

/-! ### Texts of blocks -/

/-- Quotes that stand in front. -/
def leading (quote : Char) (cs : List Char) : Nat := (cs.takeWhile (· == quote)).length

/-- A spelling cannot be mistaken for a quote, nor for a line break unless it is one. -/
def Begins (quote : Char) (spelled : List Char) (c : Char) : Prop :=
  ∃ first more, spelled = first :: more ∧ first ≠ quote ∧ first ≠ '\r' ∧ (first = '\n' → c = '\n')

/-- How a block can be written: no three quotes side by side, and else characters as they are spelled. -/
inductive Fenced (quote : Char) : List Char → List Char → Prop
  | nil : Fenced quote [] []
  | quote {written text : List Char} (short : leading quote (quote :: written) ≤ 2) (rest : Fenced quote written text) :
    Fenced quote (quote :: written) (quote :: text)
  | other {spelled written text : List Char} {c : Char} (spells : Spells quote true spelled c)
      (begins : Begins quote spelled c) (rest : Fenced quote written text) :
    Fenced quote (spelled ++ written) (c :: text)

variable {written : List Char}

theorem leading_replicate (n : Nat) (htail : tail.head? ≠ some quote) :
    leading quote (List.replicate n quote ++ tail) = n := by
  have hstop : tail.takeWhile (· == quote) = [] := by
    cases tail with
    | nil => rfl
    | cons c rest =>
      have hc : c ≠ quote := fun he => htail (he ▸ rfl)
      simp [hc]
  simp [leading, hstop]

theorem leading_append (rest : List Char) (h : ∃ c ∈ written, c ≠ quote) :
    leading quote (written ++ rest) = leading quote written := by
  have hfewer : (written.takeWhile (· == quote)).length ≠ written.length := by
    intro hlength
    obtain ⟨c, hc, hne⟩ := h
    have hall := (List.takeWhile_sublist (· == quote)).eq_of_length hlength
    have hquotes : (written.takeWhile (· == quote)).all (· == quote) = true := List.all_takeWhile
    rw [hall, List.all_eq_true] at hquotes
    exact hne (by simpa using hquotes c hc)
  rw [leading, List.takeWhile_append, if_neg hfewer, leading]

/-- Quotes before the closing ones belong to the text. -/
theorem closing?_replicate {n : Nat} (h : n ≤ 2) (htail : tail.head? ≠ some quote) :
    closing? quote (List.replicate n quote ++ quote :: quote :: quote :: tail) =
      some (List.replicate n quote, n + 3) := by
  have hquotes : List.replicate n quote ++ quote :: quote :: quote :: tail = List.replicate (n + 3) quote ++ tail := by
    rw [← List.replicate_append_replicate, List.append_assoc]
    rfl
  have hrun := leading_replicate (n + 3) htail
  rw [leading] at hrun
  simp only [closing?, hquotes, hrun]
  rw [if_neg (by omega), Nat.add_sub_cancel, Nat.min_eq_left h, Nat.min_eq_left (by omega)]

theorem closing?_of_leading {cs : List Char} (h : leading quote cs ≤ 2) : closing? quote cs = none := by
  rw [leading] at h
  rw [closing?, if_pos (by omega)]

/-- Written with quotes only, a text is what is written. -/
theorem Fenced.text_eq (h : Fenced quote written text) (hall : ∀ c ∈ written, c = quote) : text = written := by
  induction h with
  | nil => rfl
  | quote _ _ ih => rw [ih fun c hc => hall c (List.mem_cons_of_mem _ hc)]
  | other _ hbegins _ _ =>
    obtain ⟨first, more, rfl, hfirst, -⟩ := hbegins
    exact absurd (hall first (by simp)) hfirst

theorem readText_closed (h : closing? quote (quote :: tail) = some (text, n)) :
    readText quote true (quote :: tail) = some (text, n) := by
  rw [readText, if_pos rfl, if_pos rfl, h]

theorem readText_inside (h : closing? quote (quote :: tail) = none) :
    readText quote true (quote :: tail) = (readText quote true tail).map fun (text, n) => (quote :: text, n + 1) := by
  rw [readText, if_pos rfl, if_pos rfl, h]

theorem readText_fenced (h : Fenced quote written text) (htail : tail.head? ≠ some quote) :
    readText quote true (written ++ quote :: quote :: quote :: tail) = some (text, written.length + 3) := by
  induction h with
  | nil => exact readText_closed (closing?_replicate (n := 0) (Nat.zero_le 2) htail)
  | @quote written text hshort hrest ih =>
    by_cases hall : ∀ c ∈ written, c = quote
    · -- the quotes run on into the closing ones, which are the last three of them
      have hwritten : written = List.replicate written.length quote := List.eq_replicate_of_mem hall
      have hlength : written.length + 1 ≤ 2 := by
        have hnone : ([] : List Char).head? ≠ some quote := nofun
        have hrun := leading_replicate (written.length + 1) hnone
        rw [List.append_nil, List.replicate_succ, ← hwritten] at hrun
        omega
      have hclosing := closing?_replicate hlength htail
      rw [List.replicate_succ, ← hwritten] at hclosing
      rw [hrest.text_eq hall]
      exact readText_closed hclosing
    · have hother : ∃ c ∈ quote :: written, c ≠ quote := by
        obtain ⟨c, hc, hne⟩ : ∃ c ∈ written, c ≠ quote := by simpa using hall
        exact ⟨c, List.mem_cons_of_mem _ hc, hne⟩
      rw [← leading_append (quote :: quote :: quote :: tail) hother, List.cons_append] at hshort
      rw [List.cons_append, readText_inside (closing?_of_leading hshort), ih]
      rfl
  | @other spelled written text c hspells _ hrest ih =>
    rw [List.append_assoc, hspells, ih, List.length_append]
    simp only [Option.map_some]
    congr 2
    omega

/-! ### Blocks that are written -/

theorem leading_le_longestRun (quote : Char) (cs : List Char) : ∀ n, n + leading quote cs ≤ longestRun quote n cs := by
  induction cs with
  | nil =>
    intro n
    exact Nat.le_refl n
  | cons c rest ih =>
    intro n
    rw [longestRun, leading]
    by_cases hc : c = quote
    · have hrun := ih (n + 1)
      rw [leading] at hrun
      simp only [hc, if_true, List.takeWhile_cons, beq_self_eq_true, List.length_cons]
      omega
    · simp only [hc, if_false, List.takeWhile_cons, beq_iff_eq, List.length_nil]
      exact Nat.le_max_left _ _

theorem longestRun_tail (c : Char) (rest : List Char) :
    ∀ n, longestRun quote 0 rest ≤ longestRun quote n (c :: rest) := by
  have hmono (cs : List Char) : ∀ m n, m ≤ n → longestRun quote m cs ≤ longestRun quote n cs := by
    induction cs with
    | nil =>
      intro m n hle
      exact hle
    | cons c rest ih =>
      intro m n hle
      rw [longestRun, longestRun]
      split
      · exact ih _ _ (Nat.succ_le_succ hle)
      · omega
  intro n
  rw [longestRun]
  split
  · exact hmono rest 0 (n + 1) (Nat.zero_le _)
  · exact Nat.le_max_right _ _

theorem isPlain_of_isControl (h : isControl c = false) : isPlain c = true ∨ c = '\n' := by
  simp only [isControl, isPlain, Bool.or_eq_true, Bool.and_eq_true, Bool.and_eq_false_iff, Bool.or_eq_false_iff, beq_iff_eq,
    bne_eq_false_iff_eq, decide_eq_true_eq, decide_eq_false_iff_not] at h ⊢
  rcases h with h | h
  · rcases h with rfl | rfl
    · exact .inl (.inl rfl)
    · exact .inr rfl
  · left
    right
    omega

theorem not_return_of_isControl (h : isControl c = false) : c ≠ '\r' := by
  rintro rfl
  exact absurd h (by decide)

/-- A text without controls and with few quotes side by side is its own block between single quotes. -/
theorem fenced_literal (hclear : ∀ c ∈ text, isControl c = false) (hrun : longestRun '\'' 0 text ≤ 2) :
    Fenced '\'' text text := by
  induction text with
  | nil => exact .nil
  | cons c rest ih =>
    obtain ⟨hc, hrest⟩ := List.forall_mem_cons.1 hclear
    have hfenced := ih hrest (Nat.le_trans (longestRun_tail c rest 0) hrun)
    by_cases hquote : c = '\''
    · subst hquote
      have hlead := leading_le_longestRun '\'' ('\'' :: rest) 0
      exact .quote (by omega) hfenced
    · have hplain : isPlain c = true ∨ (true = true ∧ c = '\n') := (isPlain_of_isControl hc).imp_right fun he => ⟨rfl, he⟩
      exact .other (spells_self hquote (fun h => absurd h.2 (by decide)) hplain)
        ⟨c, [], rfl, hquote, not_return_of_isControl hc, id⟩ hfenced

theorem begins_escaped (c : Char) : Begins '"' (escaped c) c := by
  have hslash (more : List Char) : Begins '"' ('\\' :: more) c :=
    ⟨'\\', more, rfl, by decide, by decide, fun he => absurd he (by decide)⟩
  unfold escaped
  split
  · exact hslash _
  · exact hslash _
  · exact hslash _
  · exact hslash _
  · exact hslash _
  · exact hslash _
  · exact hslash _
  · next hreturn hquote _ =>
    split
    · exact hslash _
    · exact ⟨c, [], rfl, hquote, hreturn, id⟩

theorem leading_of_begins (rest : List Char) (h : Begins quote spelled c) : leading quote (spelled ++ rest) = 0 := by
  obtain ⟨first, more, rfl, hfirst, -⟩ := h
  simp [leading, hfirst]

/-- Of quotes side by side a third is escaped, and counting starts again behind it. -/
theorem leading_escapedBlock (text : List Char) : ∀ run, run ≤ 2 → run + leading '"' (escapedBlock run text) ≤ 2 := by
  induction text with
  | nil =>
    intro run hrun
    exact hrun
  | cons c rest ih =>
    intro run hrun
    rw [escapedBlock]
    by_cases hquote : c = '"'
    · rw [if_pos hquote]
      by_cases htwo : run < 2
      · have hrest := ih (run + 1) htwo
        rw [leading] at hrest
        simp only [htwo, if_true, leading, List.takeWhile_cons, beq_self_eq_true, List.length_cons]
        omega
      · rw [if_neg htwo]
        exact hrun
    · rw [if_neg hquote]
      split
      · exact hrun
      · rw [leading_of_begins _ (begins_escaped c)]
        exact hrun

theorem fenced_escapedBlock (text : List Char) : ∀ run, run ≤ 2 → Fenced '"' (escapedBlock run text) text := by
  induction text with
  | nil =>
    intro run _
    exact .nil
  | cons c rest ih =>
    intro run hrun
    have hlead := leading_escapedBlock (c :: rest) run hrun
    rw [escapedBlock] at hlead ⊢
    by_cases hquote : c = '"'
    · subst hquote
      rw [if_pos rfl] at hlead ⊢
      by_cases htwo : run < 2
      · rw [if_pos htwo] at hlead ⊢
        exact .quote (by omega) (ih (run + 1) htwo)
      · rw [if_neg htwo]
        exact .other (spells_escaped '"') (begins_escaped '"') (ih 0 (Nat.zero_le 2))
    · rw [if_neg hquote]
      split
      · next hfeed =>
        subst hfeed
        have hself : Spells '"' true ['\n'] '\n' := spells_self (by decide) (by decide) (.inr ⟨rfl, rfl⟩)
        exact .other hself ⟨'\n', [], rfl, by decide, by decide, id⟩ (ih 0 (Nat.zero_le 2))
      · exact .other (spells_escaped c) (begins_escaped c) (ih 0 (Nat.zero_le 2))

/-! ### Texts with their quotes -/

/-- The line break before a block of several lines does not count, and a block of one line begins with none. -/
theorem breakLength_opening (h : Fenced quote written text) (hfeed : quote ≠ '\n') (hreturn : quote ≠ '\r') (tail : List Char) :
    breakLength (blockOpening text ++ (written ++ quote :: tail)) = (blockOpening text).length := by
  unfold blockOpening
  split
  · rfl
  · next hline =>
    have hnone {first : Char} (more : List Char) (hfirst : first ≠ '\n') (hfirst' : first ≠ '\r') :
        breakLength (first :: more) = 0 := by
      rw [breakLength]
      · intro rest he
        exact hfirst (List.cons.inj he).1
      · intro rest he
        exact hfirst' (List.cons.inj he).1
    cases h with
    | nil => exact hnone tail hfeed hreturn
    | quote _ _ => exact hnone _ hfeed hreturn
    | @other spelled written text c _ hbegins _ =>
      obtain ⟨first, more, rfl, -, hfirst, hc⟩ := hbegins
      refine hnone _ (fun he => hline ?_) hfirst
      simp [hc he]

theorem readQuoted_block (h : Fenced quote written text) (hfeed : quote ≠ '\n') (hreturn : quote ≠ '\r')
    (htail : tail.head? ≠ some quote) :
    readQuoted quote (between [quote, quote, quote] (blockOpening text ++ written) ++ tail) =
      some (.block (String.ofList text), (between [quote, quote, quote] (blockOpening text ++ written)).length) := by
  have hbody : between [quote, quote, quote] (blockOpening text ++ written) ++ tail =
      quote :: quote :: quote :: (blockOpening text ++ (written ++ quote :: quote :: quote :: tail)) := by
    simp [between]
  have hread : readBlock quote (blockOpening text ++ (written ++ quote :: quote :: quote :: tail)) =
      some (.block (String.ofList text), written.length + 3 + (blockOpening text).length + 3) := by
    rw [readBlock, breakLength_opening h hfeed hreturn]
    simp only [List.drop_left, readText_fenced h htail]
    rfl
  rw [hbody, readQuoted, if_pos ⟨rfl, rfl⟩, hread]
  simp only [between, List.length_append, List.length_cons, List.length_nil]
  congr 2
  omega

theorem readQuoted_eq_readLine {cs : List Char} (h : ∀ rest, cs ≠ quote :: quote :: rest) :
    readQuoted quote (quote :: cs) = readLine quote cs := by
  match cs with
  | [] => rfl
  | [_] => rfl
  | b :: c :: rest =>
    have hblock : ¬ (b = quote ∧ c = quote) := by
      rintro ⟨rfl, rfl⟩
      exact h rest rfl
    rw [readQuoted, if_neg hblock]

theorem readQuoted_line {spelling : Char → List Char} (h : ∀ c ∈ text, Spells quote false (spelling c) c)
    (hbegins : ∀ c ∈ text, Begins quote (spelling c) c) (htail : tail.head? ≠ some quote) :
    readQuoted quote (between [quote] (text.flatMap spelling) ++ tail) =
      some (.quoted (String.ofList text), (between [quote] (text.flatMap spelling)).length) := by
  have hbody : between [quote] (text.flatMap spelling) ++ tail = quote :: (text.flatMap spelling ++ quote :: tail) := by
    simp [between]
  have hopening : ∀ rest, text.flatMap spelling ++ quote :: tail ≠ quote :: quote :: rest := by
    intro rest he
    cases text with
    | nil =>
      obtain rfl := (List.cons.inj he).2
      exact htail rfl
    | cons c text =>
      obtain ⟨first, more, hspelled, hfirst, -⟩ := hbegins c List.mem_cons_self
      rw [List.flatMap_cons, hspelled] at he
      exact hfirst (List.cons.inj he).1
  rw [hbody, readQuoted_eq_readLine hopening, readLine, readText_line h]
  simp [between]

/-! ### What quotes are chosen -/

/-- Texts that come back from between such quotes. -/
def Quoting.Holds (text : List Char) : Quoting → Prop
  | basic => True
  | literal => ∀ c ∈ text, isControl c = false ∧ c ≠ '\n' ∧ c ≠ '\''
  | basicBlock => True
  | literalBlock => (∀ c ∈ text, isControl c = false) ∧ longestRun '\'' 0 text ≤ 2

/-- What is read of a text between such quotes. -/
def Quoting.token (text : String) : Quoting → Token
  | basic => .quoted text
  | literal => .quoted text
  | basicBlock => .block text
  | literalBlock => .block text

def Quoting.mark : Quoting → Char
  | basic => '"'
  | literal => '\''
  | basicBlock => '"'
  | literalBlock => '\''

theorem readQuoted_write {q : Quoting} (h : q.Holds text) (htail : ∀ c, tail.head? = some c → isQuote c = false) :
    readQuoted q.mark (q.write text ++ tail) = some (q.token (String.ofList text), (q.write text).length) := by
  have hdouble : tail.head? ≠ some '"' := fun he => absurd (htail _ he) (by decide)
  have hsingle : tail.head? ≠ some '\'' := fun he => absurd (htail _ he) (by decide)
  cases q with
  | basic => exact readQuoted_line (fun c _ => spells_escaped c) (fun c _ => begins_escaped c) hdouble
  | literal =>
    have hself : text.flatMap (fun c => [c]) = text := List.flatMap_singleton' text
    have hspells : ∀ c ∈ text, Spells '\'' false [c] c := by
      intro c hc
      obtain ⟨hcontrol, hfeed, hquote⟩ := h c hc
      exact spells_self hquote (fun he => absurd he.2 (by decide)) (.inl ((isPlain_of_isControl hcontrol).resolve_right hfeed))
    have hbegins : ∀ c ∈ text, Begins '\'' [c] c := by
      intro c hc
      obtain ⟨hcontrol, -, hquote⟩ := h c hc
      exact ⟨c, [], rfl, hquote, not_return_of_isControl hcontrol, id⟩
    have hread := readQuoted_line hspells hbegins hsingle
    rwa [hself] at hread
  | basicBlock => exact readQuoted_block (fenced_escapedBlock text 0 (Nat.zero_le 2)) (by decide) (by decide) hdouble
  | literalBlock => exact readQuoted_block (fenced_literal h.1 h.2) (by decide) (by decide) hsingle

theorem isControl_of_any (h : text.any isControl = false) : ∀ c ∈ text, isControl c = false := by
  intro c hc
  exact Bool.eq_false_iff.2 (List.any_eq_false.1 h c hc)

theorem ne_of_contains (h : text.contains d = false) : ∀ c ∈ text, c ≠ d := by
  rintro c hc rfl
  rw [List.contains_iff_mem.2 hc] at h
  cases h

theorem holds_literal (hcontrol : text.any isControl = false) (hfeed : text.contains '\n' = false)
    (hquote : text.contains '\'' = false) : Quoting.Holds text .literal := by
  intro c hc
  exact ⟨isControl_of_any hcontrol c hc, ne_of_contains hfeed c hc, ne_of_contains hquote c hc⟩

theorem holds_quotingOf (text : List Char) : (quotingOf text).Holds text := by
  simp only [quotingOf]
  split
  · trivial
  · split
    · next h =>
      simp only [Bool.and_eq_true, Bool.not_eq_true'] at h
      exact holds_literal h.1.1 h.1.2 h.2
    · split
      · trivial
      · split
        · next h =>
          simp only [Bool.and_eq_true, Bool.not_eq_true', decide_eq_true_eq] at h
          exact ⟨isControl_of_any h.1, h.2⟩
        · split
          · trivial
          · trivial

theorem holds_keyQuotingOf (key : List Char) : (keyQuotingOf key).Holds key := by
  simp only [keyQuotingOf]
  split
  · trivial
  · split
    · next h =>
      simp only [Bool.and_eq_true, Bool.not_eq_true', Bool.or_eq_false_iff] at h
      exact holds_literal h.1.1 h.1.2 h.2
    · trivial

end Toml
end NoteStencil
