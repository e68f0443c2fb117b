import NoteStencil.Note.Written
import NoteStencil.Proofs.TextLines

/-! The lines of a written mapping. A dash at the front of a line stands before a space or belongs to a scalar that
does not begin with three of them, and every other line starts with a mark, a quote or indentation. So no line is a
delimiter, and none holds a carriage return. -/

namespace NoteStencil
namespace Yaml

/-! ### Output -/

/-- What the line that is being written holds, its last character in front. -/
def openLine (out : Output) : List Char := out.takeWhile (· ≠ '\n')

/-- No line starts with three dashes. -/
def Undashed : Output → Prop
  | [] => True
  | c :: out => ¬(c = '-' ∧ openLine out = ['-', '-']) ∧ Undashed out

structure Sound (out : Output) : Prop where
  undashed : Undashed out
  noReturn : '\r' ∉ out

/-- Whatever comes next in this line, it does not start with three dashes. -/
def Settled (out : Output) : Prop := ∃ c ∈ openLine out, c ≠ '-'

def Ready (out : Output) : Prop := openLine out = [] ∨ Settled out

/-- Text that stays in its line. -/
def Inline (cs : List Char) : Prop := ∀ c ∈ cs, c ≠ '\n' ∧ c ≠ '\r'

def Dashed (cs : List Char) : Prop := ['-', '-', '-'] <+: cs

/-- Text that can stand at the front of a line. -/
def Flat (cs : List Char) : Prop := Inline cs ∧ ¬ Dashed cs

instance (cs : List Char) : Decidable (Inline cs) :=
  decidable_of_iff (cs.all fun c => c ≠ '\n' && c ≠ '\r') (by simp [Inline])

instance (cs : List Char) : Decidable (Dashed cs) :=
  decidable_of_iff (['-', '-', '-'].isPrefixOf cs) List.isPrefixOf_iff_prefix

instance (cs : List Char) : Decidable (Flat cs) := inferInstanceAs (Decidable (_ ∧ _))

theorem sound_nil : Sound [] := ⟨trivial, by simp⟩

theorem openLine_cons {c : Char} (out : Output) (h : c ≠ '\n') : openLine (c :: out) = c :: openLine out := by
  simp [openLine, h]

theorem openLine_feed (out : Output) : openLine ('\n' :: out) = [] := by
  simp [openLine]

theorem Sound.cons_iff {out : Output} {c : Char} (h : Sound out) :
    Sound (c :: out) ↔ ¬(c = '-' ∧ openLine out = ['-', '-']) ∧ c ≠ '\r' := by
  constructor
  · intro hc
    exact ⟨hc.undashed.1, fun he => hc.noReturn (by simp [he])⟩
  · rintro ⟨hdash, hreturn⟩
    exact ⟨⟨hdash, h.undashed⟩, by simp [h.noReturn, hreturn.symm]⟩

theorem Sound.cons {out : Output} {c : Char} (h : Sound out) (hdash : c ≠ '-') (hreturn : c ≠ '\r') :
    Sound (c :: out) :=
  h.cons_iff.2 ⟨fun hc => hdash hc.1, hreturn⟩

theorem settled_cons_of_ne {c : Char} (out : Output) (hfeed : c ≠ '\n') (hdash : c ≠ '-') : Settled (c :: out) :=
  ⟨c, by simp [openLine_cons out hfeed], hdash⟩

theorem Settled.cons {out : Output} {c : Char} (h : Settled out) (hfeed : c ≠ '\n') : Settled (c :: out) := by
  obtain ⟨d, hd, hne⟩ := h
  exact ⟨d, by simp [openLine_cons out hfeed, hd], hne⟩

theorem Settled.undashed {out : Output} (h : Settled out) : openLine out ≠ ['-', '-'] := by
  obtain ⟨d, hd, hne⟩ := h
  intro heq
  rw [heq] at hd
  simp [hne] at hd

theorem Sound.cons_settled {out : Output} {c : Char} (h : Sound out) (hs : Settled out) (hreturn : c ≠ '\r') :
    Sound (c :: out) :=
  h.cons_iff.2 ⟨fun hc => hs.undashed hc.2, hreturn⟩

theorem Sound.space {out : Output} (h : Sound out) : Sound (' ' :: out) ∧ Settled (' ' :: out) :=
  ⟨h.cons (by decide) (by decide), settled_cons_of_ne out (by decide) (by decide)⟩

theorem put_cons (out : Output) (c : Char) (cs : List Char) : out.put (c :: cs) = Output.put (c :: out) cs := by
  simp [Output.put]

theorem put_settled {cs : List Char} (hcs : Inline cs) :
    ∀ {out : Output}, Sound out → Settled out → Sound (out.put cs) ∧ Settled (out.put cs) := by
  induction cs with
  | nil => exact fun h hs => ⟨h, hs⟩
  | cons c rest ih =>
    intro out h hs
    obtain ⟨hfeed, hreturn⟩ := hcs c (by simp)
    rw [put_cons]
    exact ih (fun d hd => hcs d (by simp [hd])) (h.cons_settled hs hreturn) (hs.cons hfeed)

theorem inline_tail {c : Char} {cs : List Char} (h : Inline (c :: cs)) : Inline cs :=
  fun d hd => h d (List.mem_cons_of_mem _ hd)

/-- In a line that has only `n` dashes so far, text that does not make them three. -/
theorem put_dashes {cs : List Char} (hcs : Inline cs) :
    ∀ {out : Output} (n : Nat), Sound out → openLine out = List.replicate n '-' → n ≤ 2 →
      ¬ Dashed (List.replicate n '-' ++ cs) → Sound (out.put cs) := by
  induction cs with
  | nil => exact fun n h _ _ _ => h
  | cons c rest ih =>
    intro out n h hline hn hdashed
    obtain ⟨hfeed, hreturn⟩ := hcs c (by simp)
    rw [put_cons]
    by_cases hc : c = '-'
    · have hlt : n ≠ 2 := by
        rintro rfl
        exact hdashed ⟨rest, by simp [hc]⟩
      have hopen : openLine out ≠ ['-', '-'] := by
        rw [hline]
        intro heq
        exact hlt (by simpa using congrArg List.length heq)
      have hsound : Sound (c :: out) := h.cons_iff.2 ⟨fun hd => hopen hd.2, hreturn⟩
      refine ih (inline_tail hcs) (n + 1) hsound ?_ (by omega) ?_
      · rw [openLine_cons out hfeed, hline, hc, List.replicate_succ]
      · rw [hc] at hdashed
        rwa [List.replicate_succ', List.append_assoc, List.singleton_append]
    · exact (put_settled (inline_tail hcs) (h.cons hc hreturn) (settled_cons_of_ne out hfeed hc)).1

theorem Sound.put {out : Output} {cs : List Char} (h : Sound out) (hr : Ready out) (hcs : Flat cs) :
    Sound (out.put cs) := by
  rcases hr with hr | hr
  · exact put_dashes hcs.1 0 h hr (by omega) hcs.2
  · exact (put_settled hcs.1 h hr).1

theorem Sound.spaced {out : Output} {cs : List Char} {gap : Bool} (h : Sound out) (hcs : Flat cs)
    (hgap : gap = false → Ready out) : Sound (out.spaced gap cs) := by
  cases gap with
  | true => exact (put_settled hcs.1 h.space.1 h.space.2).1
  | false => exact h.put (hgap rfl) hcs

theorem inline_replicate {c : Char} (n : Nat) (h : c ≠ '\n' ∧ c ≠ '\r') : Inline (List.replicate n c) := by
  intro d hd
  rwa [List.eq_of_mem_replicate hd]

theorem inline_spaces (n : Nat) : Inline (spaces n) := inline_replicate n (by decide)

theorem spaces_append (n : Nat) (out : Output) : spaces n ++ out = out.put (spaces n) := by
  simp [Output.put, spaces]

/-- Indentation keeps a line ready. -/
theorem Ready.spaces {out : Output} (h : Sound out) (hr : Ready out) (n : Nat) :
    Sound (spaces n ++ out) ∧ Ready (Yaml.spaces n ++ out) := by
  cases n with
  | zero => exact ⟨h, hr⟩
  | succ n =>
    have hs := put_settled (inline_spaces n) h.space.1 h.space.2
    rw [spaces_append, Yaml.spaces, List.replicate_succ, put_cons]
    exact ⟨hs.1, .inr hs.2⟩

theorem Sound.line {out : Output} (h : Sound out) (indent : Nat) :
    Sound (out.line indent) ∧ Ready (out.line indent) := by
  unfold Output.line
  cases out with
  | nil => exact Ready.spaces sound_nil (.inl rfl) indent
  | cons c rest =>
    simp only
    split
    · refine Ready.spaces h ?_ indent
      by_cases hc : c = '\n'
      · exact .inl (hc ▸ openLine_feed rest)
      · have hdash : c ≠ '-' := by
          rintro rfl
          contradiction
        exact .inr (settled_cons_of_ne rest hc hdash)
    · exact Ready.spaces (h.cons (by decide) (by decide)) (.inl (openLine_feed _)) indent

theorem Sound.fresh {s : Site} {out : Output} (h : Sound out) (indent : Nat) :
    Sound (s.fresh out indent) ∧ Ready (s.fresh out indent) := by
  unfold Site.fresh
  split
  · exact ⟨h.space.1, .inr h.space.2⟩
  · exact h.line indent

/-! ### Scalars -/

theorem not_return_of_isPrintable {c : Char} (h : isPrintable c = true) : c ≠ '\r' := by
  rintro rfl
  revert h
  decide

theorem inline_of_not_isBreak {cs : List Char} (h : ∀ c ∈ cs, isBreak c = false) : Inline cs := by
  intro c hc
  have hbreak := h c hc
  constructor <;> rintro rfl <;> revert hbreak <;> decide

theorem inline_append {xs ys : List Char} (hx : Inline xs) (hy : Inline ys) : Inline (xs ++ ys) := by
  intro c hc
  rcases List.mem_append.1 hc with hc | hc
  · exact hx c hc
  · exact hy c hc

theorem inline_cons {c : Char} {cs : List Char} (hc : c ≠ '\n' ∧ c ≠ '\r') (hcs : Inline cs) : Inline (c :: cs) := by
  intro d hd
  rcases List.mem_cons.1 hd with rfl | hd
  · exact hc
  · exact hcs d hd

theorem inline_nil : Inline [] := by simp [Inline]

theorem inline_flatMap {α : Type} {xs : List α} {f : α → List Char} (h : ∀ x ∈ xs, Inline (f x)) :
    Inline (xs.flatMap f) := by
  intro c hc
  obtain ⟨x, hx, hc⟩ := List.mem_flatMap.1 hc
  exact h x hx c hc

theorem not_dashed_cons {c : Char} (cs : List Char) (h : c ≠ '-') : ¬ Dashed (c :: cs) := by
  rintro ⟨rest, heq⟩
  exact h (List.cons.inj heq).1.symm

theorem digitChar_of_mem_toDigits {n : Nat} {c : Char} (h : c ∈ Nat.toDigits 16 n) :
    ∃ k < 16, c = Nat.digitChar k := by
  induction n using Nat.strongRecOn with
  | ind n ih =>
    rw [Nat.toDigits_eq_if (by decide)] at h
    split at h
    · next hlt => exact ⟨n, hlt, List.mem_singleton.1 h⟩
    · rcases List.mem_append.1 h with h | h
      · exact ih (n / 16) (by omega) h
      · exact ⟨n % 16, by omega, List.mem_singleton.1 h⟩

theorem inline_upperHex (width n : Nat) : Inline (upperHex width n) := by
  refine inline_append (inline_replicate _ (by decide)) fun c hc => ?_
  obtain ⟨d, hd, rfl⟩ := List.mem_map.1 hc
  obtain ⟨k, hk, rfl⟩ := digitChar_of_mem_toDigits hd
  have hall : ∀ k < 16, (Nat.digitChar k).toUpper ≠ '\n' ∧ (Nat.digitChar k).toUpper ≠ '\r' := by decide
  exact hall k hk

theorem inline_escapedChar (c : Char) : Inline (escapedChar c) := by
  unfold escapedChar
  split
  case h_15 hfeed _ _ hreturn _ _ _ _ _ _ =>
    split
    · exact inline_cons ⟨hfeed, hreturn⟩ inline_nil
    · split
      · exact inline_cons (by decide) (inline_cons (by decide) (inline_upperHex 2 _))
      · split
        · exact inline_cons (by decide) (inline_cons (by decide) (inline_upperHex 4 _))
        · exact inline_cons (by decide) (inline_cons (by decide) (inline_upperHex 8 _))
  all_goals decide

theorem inline_singleQuoted (indent : Nat) {cs : List Char} (h : Inline cs) (broken : Bool) :
    Inline (singleQuoted indent broken cs) := by
  have hlead (b : Bool) : Inline (if b then spaces indent else []) := by
    cases b
    · exact inline_nil
    · exact inline_spaces indent
  induction cs generalizing broken with
  | nil => exact inline_append (hlead broken) (by decide)
  | cons c rest ih =>
    have hc := h c (by simp)
    have hrest := inline_tail h
    unfold singleQuoted
    split
    · exact inline_cons hc (ih hrest true)
    · refine inline_append (inline_append (hlead broken) ?_) (ih hrest false)
      split
      · decide
      · exact inline_cons hc inline_nil

/-! ### Forms of a text -/

theorem formOf_plain {key : Bool} {s : String} (h : formOf key s = .plain) : (shape s.toList).plain = true := by
  unfold formOf at h
  grind

theorem formOf_single {key : Bool} {s : String} (h : formOf key s = .single) :
    '\n' ∉ s.toList ∧ (shape s.toList).single = true := by
  unfold formOf at h
  grind

theorem formOf_literal {key : Bool} {s : String} (h : formOf key s = .literal) :
    key = false ∧ (shape s.toList).block = true := by
  unfold formOf at h
  grind

theorem not_return_of_clear {cs : List Char} (h : cs.any (!isPrintable ·) = false) : '\r' ∉ cs := by
  intro hr
  have hall := List.any_eq_false.1 h '\r' hr
  exact not_return_of_isPrintable (by simpa using hall) rfl

theorem shape_plain {cs : List Char} (h : (shape cs).plain = true) : Flat cs := by
  simp only [shape, Bool.and_eq_true, Bool.not_eq_true'] at h
  obtain ⟨⟨-, hbroken⟩, hmarks⟩ := h
  refine ⟨inline_of_not_isBreak fun c hc => by simpa using List.any_eq_false.1 hbroken c hc, ?_⟩
  rintro ⟨rest, rfl⟩
  cases hmarks

theorem shape_single {cs : List Char} (h : (shape cs).single = true) : '\r' ∉ cs := by
  simp only [shape, Bool.and_eq_true, Bool.not_eq_true', Bool.or_eq_false_iff] at h
  exact not_return_of_clear h.2.2

theorem shape_block {cs : List Char} (h : (shape cs).block = true) : '\r' ∉ cs := by
  simp only [shape, Bool.and_eq_true, Bool.not_eq_true', Bool.or_eq_false_iff] at h
  exact not_return_of_clear h.1.2.2

theorem textForm_flat {key : Bool} (indent : Nat) {s : String} (h : formOf key s ≠ .literal) :
    Flat (textForm key indent s) := by
  unfold textForm
  cases hf : formOf key s with
  | plain => exact shape_plain (formOf_plain hf)
  | single =>
    obtain ⟨hfeed, hsingle⟩ := formOf_single hf
    have hreturn := shape_single hsingle
    have hinline : Inline s.toList := fun c hc => ⟨fun he => hfeed (he ▸ hc), fun he => hreturn (he ▸ hc)⟩
    exact ⟨inline_cons (by decide) (inline_singleQuoted indent hinline false), not_dashed_cons _ (by decide)⟩
  | double =>
    have hescaped := inline_flatMap fun c (_ : c ∈ s.toList) => inline_escapedChar c
    exact ⟨inline_append (inline_cons (by decide) hescaped) (by decide), not_dashed_cons _ (by decide)⟩
  | literal => exact absurd hf h

theorem put_append (out : Output) (xs ys : List Char) : out.put (xs ++ ys) = (out.put xs).put ys := by
  simp [Output.put]

/-- A line of a literal block starts with indentation, and it is not fresh once something stands in it. -/
theorem put_literalLines (indent : Nat) {cs : List Char} (hreturn : '\r' ∉ cs) :
    ∀ {out : Output} (fresh : Bool), Sound out → (fresh = false → Settled out) →
      Sound (out.put (literalLines (indent + 1) fresh cs)) := by
  induction cs with
  | nil => exact fun _ h _ => h
  | cons c rest ih =>
    intro out fresh h hs
    have hc : c ≠ '\r' := fun he => hreturn (by simp [he])
    have ih := @ih fun hm => hreturn (List.mem_cons_of_mem _ hm)
    unfold literalLines
    split
    · next hbreak =>
      have hdash : c ≠ '-' := by
        rintro rfl
        revert hbreak
        decide
      rw [put_cons]
      exact ih true (h.cons hdash hc) nofun
    · next hbreak =>
      have hfeed : c ≠ '\n' := by
        rintro rfl
        exact hbreak (by decide)
      have hlead : Sound (out.put (if fresh then spaces (indent + 1) else [])) ∧
          Settled (out.put (if fresh then spaces (indent + 1) else [])) := by
        cases fresh with
        | true =>
          rw [if_pos rfl, spaces, List.replicate_succ, put_cons]
          exact put_settled (inline_spaces indent) h.space.1 h.space.2
        | false => exact ⟨h, hs rfl⟩
      rw [put_append, put_cons]
      exact ih false (hlead.1.cons_settled hlead.2 hc) fun _ => hlead.2.cons hfeed

theorem literalHeader_eq (cs : List Char) :
    ∃ lead, literalHeader cs = lead ++ ['\n'] ∧ Inline lead := by
  refine ⟨_, rfl, inline_append (inline_cons (by decide) ?_) ?_⟩
  · split <;> decide
  · split
    · decide
    · split <;> decide
    · split
      · decide
      · split <;> decide

theorem spaced_textForm {out : Output} {key gap : Bool} {indent : Nat} {s : String} (h : Sound out)
    (hgap : gap = false → key = true ∧ Ready out) :
    Sound (out.spaced gap (textForm key (indent + 1) s)) := by
  by_cases hf : formOf key s = .literal
  · obtain ⟨hkey, hblock⟩ := formOf_literal hf
    cases gap with
    | false => cases hkey.symm.trans (hgap rfl).1
    | true =>
      obtain ⟨lead, hheader, hlead⟩ := literalHeader_eq s.toList
      have hput := put_settled hlead h.space.1 h.space.2
      have hfeed : Sound ((Output.put (' ' :: out) lead).put ['\n']) := hput.1.cons (by decide) (by decide)
      simp only [textForm, hf, Output.spaced, if_true, hheader, put_append]
      exact put_literalLines indent (shape_block hblock) true hfeed nofun
  · exact h.spaced (textForm_flat (indent + 1) hf) fun hg => (hgap hg).2

/-! ### Numbers and tags -/

theorem inline_digits (n : Nat) : Inline (Nat.toDigits 10 n) := by
  intro c hc
  have hdigit := Nat.isDigit_of_mem_toDigits (by decide) (by decide) hc
  constructor <;> rintro rfl <;> revert hdigit <;> decide

theorem dash_not_mem_digits (n : Nat) : '-' ∉ Nat.toDigits 10 n := by
  intro hc
  have hdigit := Nat.isDigit_of_mem_toDigits (by decide) (by decide) hc
  revert hdigit
  decide

theorem not_dashed_of_second {cs : List Char} (h : cs.head? ≠ some '-') : ¬ Dashed ('-' :: cs) := by
  rintro ⟨rest, heq⟩
  rw [← (List.cons.inj heq).2] at h
  exact h rfl

theorem head_of_not_mem {xs ys : List Char} (hx : '-' ∉ xs) (hy : ys.head? ≠ some '-') :
    (xs ++ ys).head? ≠ some '-' := by
  cases xs with
  | nil => exact hy
  | cons c rest => exact fun he => hx (by simp [Option.some.inj he])

theorem intText_flat (n : Int) : Flat (toString n).toList := by
  cases n with
  | ofNat m =>
    have htext : (toString (Int.ofNat m)).toList = Nat.toDigits 10 m := Nat.toList_repr
    rw [htext]
    refine ⟨inline_digits m, fun ⟨rest, heq⟩ => dash_not_mem_digits m ?_⟩
    rw [← heq]
    simp
  | negSucc m =>
    have htext : (toString (Int.negSucc m)).toList = '-' :: Nat.toDigits 10 (m + 1) := by
      show ("-" ++ Nat.repr (m + 1)).toList = _
      rw [String.toList_append, Nat.toList_repr]
      rfl
    rw [htext]
    refine ⟨inline_cons (by decide) (inline_digits _), not_dashed_of_second ?_⟩
    have hnil : ([] : List Char).head? ≠ some '-' := nofun
    simpa using head_of_not_mem (dash_not_mem_digits (m + 1)) hnil

theorem inline_zeros (n : Nat) : Inline (zeros n) := inline_replicate n (by decide)

/-- What an exponent stands behind: the digits, with a point behind the first when there are more. -/
theorem exponent_digits {digits : List Char} : Inline digits → '-' ∉ digits →
    let tail := match digits with
      | d :: e :: rest => d :: '.' :: e :: rest
      | short => short
    Inline tail ∧ '-' ∉ tail := by
  intro hinline hdash
  match digits, hinline, hdash with
  | [], hinline, hdash => exact ⟨hinline, hdash⟩
  | [_], hinline, hdash => exact ⟨hinline, hdash⟩
  | d :: e :: rest, hinline, hdash =>
    refine ⟨inline_cons (hinline d (by simp)) (inline_cons (by decide) (inline_tail hinline)), ?_⟩
    simpa using hdash

theorem show_flat (l : FloatLayout) {digits : List Char} (exponent : Int) (hinline : Inline digits)
    (hdash : '-' ∉ digits) :
    Inline (l.show digits exponent) ∧ (l.show digits exponent).head? ≠ some '-' := by
  have hpoint : Inline ['.', '0'] := by decide
  have hzeros (n : Nat) : '-' ∉ zeros n := fun h => by cases List.eq_of_mem_replicate h
  simp only [FloatLayout.show]
  by_cases h1 : 0 ≤ exponent ∧ ↑digits.length + exponent ≤ l.furthestRight
  · rw [if_pos h1, List.append_assoc]
    exact ⟨inline_append hinline (inline_append (inline_zeros _) hpoint),
      head_of_not_mem hdash (head_of_not_mem (hzeros _) nofun)⟩
  rw [if_neg h1]
  by_cases h2 : 0 < ↑digits.length + exponent ∧ ↑digits.length + exponent ≤ l.furthestRight
  · rw [if_pos h2]
    have htake : Inline (digits.take (↑digits.length + exponent).toNat) :=
      fun c hc => hinline c (List.mem_of_mem_take hc)
    have hdrop : Inline (digits.drop (↑digits.length + exponent).toNat) :=
      fun c hc => hinline c (List.mem_of_mem_drop hc)
    exact ⟨inline_append htake (inline_cons (by decide) hdrop),
      head_of_not_mem (fun h => hdash (List.mem_of_mem_take h)) nofun⟩
  rw [if_neg h2]
  by_cases h3 : l.furthestLeft ≤ ↑digits.length + exponent ∧ ↑digits.length + exponent ≤ 0
  · rw [if_pos h3]
    exact ⟨inline_cons (by decide) (inline_cons (by decide) (inline_append (inline_zeros _) hinline)), nofun⟩
  rw [if_neg h3]
  obtain ⟨htail, hfirst⟩ := exponent_digits hinline hdash
  exact ⟨inline_append htail (inline_cons (by decide) (intText_flat _).1), head_of_not_mem hfirst nofun⟩

theorem not_dashed_of_head {cs : List Char} (h : cs.head? ≠ some '-') : ¬ Dashed cs := by
  rintro ⟨rest, rfl⟩
  exact h rfl

theorem signed_flat {negative : Bool} {body : List Char} (h : Inline body ∧ body.head? ≠ some '-') :
    Flat (if negative then '-' :: body else body) := by
  cases negative with
  | true => exact ⟨inline_cons (by decide) h.1, not_dashed_of_second h.2⟩
  | false => exact ⟨h.1, not_dashed_of_head h.2⟩

theorem floatText_flat (x : Binary64) : Flat (floatText x).toList := by
  cases x with
  | nan => decide
  | infinite negative => cases negative <;> decide
  | finite negative m e =>
    -- the search for the digits must not be run
    delta floatText
    generalize Binary64.shortest = search
    change Flat (String.ofList _).toList
    rw [String.toList_ofList]
    refine signed_flat ?_
    by_cases hm : m = 0
    · rw [if_pos hm]
      exact ⟨by decide, nofun⟩
    · rw [if_neg hm]
      obtain ⟨digits, exponent⟩ := search m e
      exact show_flat floatLayout exponent (inline_digits digits) (dash_not_mem_digits digits)

theorem numberText_flat (n : Number) : Flat n.text.toList := by
  cases n with
  | int n => exact intText_flat n
  | float x => exact floatText_flat x

theorem inline_tagSuffix (cs : List Char) : Inline (tagSuffix cs) := by
  refine inline_flatMap fun c _ => ?_
  split
  · next hbare =>
    refine inline_cons ⟨?_, ?_⟩ inline_nil
    all_goals
      rintro rfl
      revert hbare
      decide
  · exact inline_flatMap fun b _ => inline_cons (by decide) (inline_upperHex 2 _)

theorem tagForm_flat (tag : String) : Flat (tagForm tag) := by
  unfold tagForm
  split
  · exact ⟨inline_append (inline_cons (by decide) (inline_cons (by decide) (inline_tagSuffix _))) (by decide),
      not_dashed_cons _ (by decide)⟩
  · exact ⟨inline_cons (by decide) (inline_tagSuffix _), not_dashed_cons _ (by decide)⟩

/-! ### Nodes -/

mutual
theorem writeNode_sound (s : Site) (v : Value) (out : Output) (h : Sound out)
    (hgap : s.gap = false → s.isKey = true ∧ Ready out) : Sound (writeNode s v out) := by
  have hflat {cs : List Char} (hcs : Flat cs) : Sound (out.spaced s.gap cs) :=
    h.spaced hcs fun hg => (hgap hg).2
  match v with
  | .null => exact hflat (by decide)
  | .bool b => cases b <;> exact hflat (by decide)
  | .number n => exact hflat (numberText_flat n)
  | .string text => exact spaced_textForm h hgap
  | .tagged tag v => exact writeNode_sound _ v _ (hflat (tagForm_flat tag)) nofun
  | .sequence [] => exact hflat (by decide)
  | .sequence (x :: xs) =>
    have hfresh := h.fresh (s := s) (if s.inMapping && !s.marked then s.indent else s.indent + 2)
    exact writeItems_sound _ xs _
      (writeNode_sound _ x _ (hfresh.1.put hfresh.2 (by decide)) nofun)
  | .mapping [] => exact hflat (by decide)
  | .mapping (e :: es) =>
    have hfresh := h.fresh (s := s) (s.indent + 2)
    exact writeEntries_sound _ es _ (writeEntry_sound _ e _ hfresh.1 hfresh.2)

theorem writeItems_sound (indent : Nat) (xs : List Value) (out : Output) (h : Sound out) :
    Sound (writeItems indent xs out) := by
  match xs with
  | [] => exact h
  | x :: xs =>
    have hline := h.line indent
    exact writeItems_sound indent xs _
      (writeNode_sound _ x _ (hline.1.put hline.2 (by decide)) nofun)

theorem writeEntry_sound (indent : Nat) (e : Value × Value) (out : Output) (h : Sound out) (hr : Ready out) :
    Sound (writeEntry indent e out) := by
  match e with
  | (k, v) =>
    unfold writeEntry
    split
    · have hkey : Sound (writeNode { indent, inMapping := true, isKey := true, gap := false } k out) :=
        writeNode_sound _ k out h fun _ => ⟨rfl, hr⟩
      exact writeNode_sound _ v _ (hkey.cons (by decide) (by decide)) nofun
    · have hkey : Sound (writeNode { indent, marked := true, inMapping := true } k (out.put ['?'])) :=
        writeNode_sound _ k _ (h.put hr (by decide)) nofun
      have hline := hkey.line indent
      exact writeNode_sound _ v _ (hline.1.put hline.2 (by decide)) nofun

theorem writeEntries_sound (indent : Nat) (es : List (Value × Value)) (out : Output) (h : Sound out) :
    Sound (writeEntries indent es out) := by
  match es with
  | [] => exact h
  | e :: es =>
    have hline := h.line indent
    exact writeEntries_sound indent es _ (writeEntry_sound indent e _ hline.1 hline.2)
end

/-! ### The text as lines -/

theorem write_sound {m : Mapping} {text : String} (h : write? m = some text) : Sound text.toList.reverse := by
  unfold write? at h
  split at h
  · cases h
    rw [String.toList_ofList, List.reverse_reverse]
    refine (Sound.line ?_ 0).1
    split
    · exact sound_nil.put (.inl rfl) (by decide)
    · exact writeEntries_sound 0 _ [] sound_nil
  · cases h

theorem return_not_mem_write {m : Mapping} {text : String} (h : write? m = some text) : '\r' ∉ text.toList :=
  fun hr => (write_sound h).noReturn (List.mem_reverse.2 hr)

theorem Undashed.drop {xs ys : Output} (h : Undashed (xs ++ ys)) : Undashed ys := by
  induction xs with
  | nil => exact h
  | cons c rest ih => exact ih h.2

/-- So the text can stand between delimiters. -/
theorem delimiter_not_mem_write {m : Mapping} {text : String} (h : write? m = some text) :
    delimiter ∉ textLines text := by
  intro hd
  rw [textLines, cutLines_eq (return_not_mem_write h), List.map_map] at hd
  obtain ⟨piece, hpiece, heq⟩ := List.mem_map.1 hd
  have hdashes : piece.1 = ['-', '-', '-'] := String.ofList_injective heq
  obtain ⟨before, after, htext, hbefore⟩ := mem_cutAt hpiece
  have hsound := (write_sound h).undashed
  rw [htext, hdashes, List.append_assoc, List.reverse_append, List.reverse_append, List.append_assoc] at hsound
  have hline : openLine before.reverse = [] := by
    rcases hbefore with rfl | hlast
    · rfl
    · rw [← List.head?_reverse] at hlast
      obtain ⟨rest, hrest⟩ := List.head?_eq_some_iff.1 hlast
      rw [hrest, openLine_feed]
  refine hsound.drop.1 ⟨rfl, ?_⟩
  show openLine ('-' :: '-' :: before.reverse) = _
  rw [openLine_cons _ (by decide), openLine_cons _ (by decide), hline]

end Yaml

namespace Note

theorem metadataLines_eq_ok {n : Note} {interior : List String} (h : n.metadataLines = .ok interior) :
    (n.frontmatter = [] ∧ interior = []) ∨
      ∃ text, n.frontmatter ≠ [] ∧ Yaml.write? n.frontmatter = some text ∧ interior = textLines text := by
  unfold metadataLines at h
  split at h
  · next hnil =>
    cases h
    exact .inl ⟨hnil, rfl⟩
  · next hne =>
    cases hw : Yaml.write? n.frontmatter with
    | none =>
      rw [hw] at h
      cases h
    | some text =>
      rw [hw] at h
      cases h
      exact .inr ⟨text, hne, rfl, rfl⟩

theorem delimiter_not_mem_metadataLines {n : Note} {interior : List String} (h : n.metadataLines = .ok interior) :
    delimiter ∉ interior := by
  rcases metadataLines_eq_ok h with ⟨-, rfl⟩ | ⟨text, -, hw, rfl⟩
  · simp
  · exact Yaml.delimiter_not_mem_write hw

end Note
end NoteStencil
