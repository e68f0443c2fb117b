import NoteStencil.Text.Numeral
import NoteStencil.Yaml.Spot

/-! The text of a scalar: plain, between quotes, or as a block of lines. In plain and quoted scalars a line break
is folded: one becomes a space, and of several all but the first stay. -/

namespace NoteStencil
namespace Yaml

abbrev Reading := Except String

/-- White space passed between two words: gaps of a line or, once a line ended, its first break and
all further ones. -/
structure Space where
  gaps : List Char := []
  first : List Char := []
  further : List Char := []
  broken : Bool := false

/-- What the space between two words reads as. -/
def Space.text (w : Space) : List Char :=
  if w.broken then
    if w.first = ['\n'] then (if w.further = [] then [' '] else w.further) else w.first ++ w.further
  else w.gaps

def Space.addBreak (w : Space) (text : List Char) : Space :=
  if w.broken then { w with further := w.further ++ text } else { w with first := text, broken := true }

/-- Gaps and breaks from here on. A tab before column `indent` of a new line is refused. -/
def readSpace (indent : Nat) : Nat → Space → Spot → Reading (Space × Spot)
  | 0, w, s => .ok (w, s)
  | fuel + 1, w, s =>
    match s.rest with
    | [] => .ok (w, s)
    | c :: _ =>
      if isGap c then
        if w.broken then
          if c = '\t' ∧ s.column < indent then .error "a tab stands where indentation is expected"
          else readSpace indent fuel w (s.skip 1)
        else readSpace indent fuel { w with gaps := w.gaps ++ [c] } (s.skip 1)
      else if isBreak c then readSpace indent fuel (w.addBreak s.breakText) s.skipBreak
      else .ok (w, s)

def isFlowMark (c : Char) : Bool := [',', '[', ']', '{', '}'].contains c

/-- A word of a plain scalar, up to a space or what ends the scalar. -/
def plainWord (inFlow : Bool) : List Char → Reading (List Char)
  | [] => .ok []
  | c :: rest =>
    if isGap c || isBreak c then .ok []
    else if inFlow && c == ':' && rest.head?.any fun d => d == '?' || isFlowMark d then
      .error "a colon stands before a flow mark"
    else if (c == ':' && atSpace rest) || (inFlow && isFlowMark c) then .ok []
    else match plainWord inFlow rest with
      | .ok word => .ok (c :: word)
      | .error e => .error e

structure PlainText where
  text : List Char
  spot : Spot
  /-- Whether the last space before the end holds a line break. -/
  broken : Bool

/-- A plain scalar ends where no word follows its last space, or at less indentation. -/
def readPlain (inFlow : Bool) (indent : Nat) : Nat → List Char → Space → Spot → Reading PlainText
  | 0, text, w, s => .ok ⟨text, s, w.broken⟩
  | fuel + 1, text, w, s =>
    if atDocumentMark s || s.rest.head? == some '#' then .ok ⟨text, s, w.broken⟩
    else match plainWord inFlow s.rest with
      | .error e => .error e
      | .ok word =>
        let (text, w) := if word = [] then (text, w) else (text ++ w.text ++ word, {})
        let s := s.skip word.length
        if !(atGap s.rest || atBreak s.rest) then .ok ⟨text, s, w.broken⟩
        else match readSpace indent (s.rest.length + 1) w s with
          | .error e => .error e
          | .ok (w, s) =>
            if !inFlow && s.column < indent then .ok ⟨text, s, w.broken⟩
            else readPlain inFlow indent fuel text w s

/-- Escapes of one letter. -/
def escapeLetter : Char → Option Char
  | '0' => some '\x00'
  | 'a' => some '\x07'
  | 'b' => some '\x08'
  | 't' | '\t' => some '\t'
  | 'n' => some '\n'
  | 'v' => some '\x0b'
  | 'f' => some '\x0c'
  | 'r' => some '\r'
  | 'e' => some '\x1b'
  | ' ' => some ' '
  | '"' => some '"'
  | '/' => some '/'
  | '\\' => some '\\'
  | 'N' => some '\x85'
  | '_' => some '\xa0'
  | 'L' => some '\u2028'
  | 'P' => some '\u2029'
  | _ => none

/-- The character of an escape, from its letter on, and how many characters spell it. -/
def escaped? : List Char → Option (Char × Nat)
  | [] => none
  | c :: rest =>
    let width := if c = 'x' then 2 else if c = 'u' then 4 else if c = 'U' then 8 else 0
    if width = 0 then (escapeLetter c).map (·, 1)
    else if (rest.take width).length < width then none
    else ((natural? 16 (rest.take width)).bind codePoint?).map (·, width + 1)

/-- Characters of a quoted scalar up to a space, a quote that ends it, or an escaped line break, which
counts as a line that has ended. -/
def readQuotedWord (single : Bool) : Nat → List Char → Spot → Reading (List Char × Bool × Spot)
  | 0, word, s => .ok (word, false, s)
  | fuel + 1, word, s =>
    match s.rest with
    | [] => .ok (word, false, s)
    | c :: rest =>
      if isGap c || isBreak c then .ok (word, false, s)
      else if single && c == '\'' && rest.head? == some '\'' then
        readQuotedWord single fuel (word ++ ['\'']) (s.skip 2)
      else if c == (if single then '\'' else '"') then .ok (word, false, s)
      else if !single && c == '\\' then
        if atBreak rest then .ok (word, true, (s.skip 1).skipBreak)
        else match escaped? rest with
          | some (d, n) => readQuotedWord single fuel (word ++ [d]) (s.skip (n + 1))
          | none => .error "an escape is unknown or incomplete"
      else readQuotedWord single fuel (word ++ [c]) (s.skip 1)

/-- A quoted scalar, from behind its opening quote. -/
def readQuoted (single : Bool) : Nat → List Char → Spot → Reading (List Char × Spot)
  | 0, _, _ => .error "a quoted scalar does not end"
  | fuel + 1, text, s =>
    if atDocumentMark s then .error "a document mark stands in a quoted scalar"
    else if s.rest = [] then .error "a quoted scalar does not end"
    else match readQuotedWord single (s.rest.length + 1) text s with
      | .error e => .error e
      | .ok (text, joined, s) =>
        if s.rest.head? == some (if single then '\'' else '"') then .ok (text, s.skip 1)
        else match readSpace 0 (s.rest.length + 1) { broken := joined } s with
          | .error e => .error e
          | .ok (w, s) => readQuoted single fuel (text ++ w.text) s

/-- The header of a block scalar: what to do with breaks at the end, and indentation given in digits. -/
structure BlockHeader where
  keepAll : Bool := false
  keepNone : Bool := false
  indent : Option Nat := none

def blockDigit? (h : BlockHeader) (s : Spot) : Reading (BlockHeader × Spot) :=
  match s.rest with
  | c :: _ =>
    if c = '0' then .error "a block scalar cannot be indented by zero"
    else if c.isDigit then .ok ({ h with indent := some (c.toNat - 48) }, s.skip 1)
    else .ok (h, s)
  | [] => .ok (h, s)

def blockChomp (h : BlockHeader) (s : Spot) : BlockHeader × Spot :=
  match s.rest with
  | '+' :: _ => ({ h with keepAll := true }, s.skip 1)
  | '-' :: _ => ({ h with keepNone := true }, s.skip 1)
  | _ => (h, s)

def readBlockHeader (s : Spot) : Reading (BlockHeader × Spot) :=
  let header :=
    if s.rest.head? == some '+' || s.rest.head? == some '-' then
      let (h, s) := blockChomp {} s
      blockDigit? h s
    else (blockDigit? {} s).map fun (h, s) => if h.indent.isSome then blockChomp h s else (h, s)
  match header with
  | .error e => .error e
  | .ok (h, s) =>
    let s := (s.skipWhile isGap).skipComment
    if atBreakOrEnd s.rest then .ok (h, s.skipBreak)
    else .error "text follows the header of a block scalar"

/-- Breaks and indentation before a line of a block. Without known indentation every leading space
counts as such, and `widest` keeps the most of them. -/
def readBlockBreaks (indent : Option Nat) :
    Nat → Nat → List Char → Spot → Reading (List Char × Nat × Spot)
  | 0, widest, breaks, s => .ok (breaks, widest, s)
  | fuel + 1, widest, breaks, s =>
    let spaces := (s.rest.takeWhile (· == ' ')).length
    let s := s.skip (match indent with
      | some n => min spaces (n - s.column)
      | none => spaces)
    let widest := max widest s.column
    let short := match indent with
      | some n => decide (s.column < n)
      | none => true
    if short && s.rest.head? == some '\t' then .error "a tab stands where indentation is expected"
    else if atBreak s.rest then readBlockBreaks indent fuel widest (breaks ++ s.breakText) s.skipBreak
    else .ok (breaks, widest, s)

/-- Lines of a block. `pending` is the break behind the last line, `after` the breaks that followed it, and
`blankBefore` says whether the last line began with a gap. -/
def readBlockLines (literal : Bool) (indent : Nat) :
    Nat → List Char → List Char → List Char → Bool → Spot → Reading (List Char × List Char × List Char × Spot)
  | 0, text, pending, after, _, s => .ok (text, pending, after, s)
  | fuel + 1, text, pending, after, blankBefore, s =>
    if s.column ≠ indent ∨ s.rest = [] then .ok (text, pending, after, s)
    else
      let blank := atGap s.rest
      let folds := !literal && pending.head? == some '\n' && !blankBefore && !blank
      let joint := if folds then (if after = [] then [' '] else []) else pending
      let line := s.rest.takeWhile (!isBreak ·)
      let s := s.skip line.length
      let pending := s.breakText
      match readBlockBreaks (some indent) (s.rest.length + 1) 0 [] s.skipBreak with
      | .error e => .error e
      | .ok (breaks, _, s) =>
        readBlockLines literal indent fuel (text ++ joint ++ after ++ line) pending breaks blank s

/-- A block scalar inside indentation `outer`, from behind its mark. -/
def readBlock (literal : Bool) (outer : Int) (s : Spot) : Reading (List Char × Spot) :=
  match readBlockHeader s with
  | .error e => .error e
  | .ok (h, s) =>
    let given := h.indent.map fun n => if 0 ≤ outer then outer.toNat + n else n
    match readBlockBreaks given (s.rest.length + 1) 0 [] s with
    | .error e => .error e
    | .ok (breaks, widest, s) =>
      let indent := given.getD (max widest (max (outer + 1).toNat 1))
      match readBlockLines literal indent (s.rest.length + 1) [] [] breaks false s with
      | .error e => .error e
      | .ok (text, pending, after, s) =>
        .ok (text ++ (if h.keepNone then [] else pending) ++ (if h.keepAll then after else []), s)

end Yaml
end NoteStencil
