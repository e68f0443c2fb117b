import NoteStencil.Text.Utf8
import NoteStencil.Yaml.ScalarText

/-! The tokens of a YAML text. Indentation becomes tokens of its own: a block collection starts where a line is
indented further and ends where one is indented less. A mapping key shows only at the colon behind it, so
the place where a key may have begun is remembered, and its tokens are put in there afterwards. Such a
key lies on one line and within 1024 characters. -/

namespace NoteStencil
namespace Yaml

inductive Token
  | streamEnd
  | version (major minor : Nat)
  | tagDirective (handle lead : String)
  | documentStart
  | documentEnd
  | blockSequenceStart
  | blockMappingStart
  | blockEnd
  | flowSequenceStart
  | flowSequenceEnd
  | flowMappingStart
  | flowMappingEnd
  | blockEntry
  | flowEntry
  | key
  | value
  | again (name : String)
  | anchor (name : String)
  | tag (handle suffix : String)
  | scalar (text : String) (plain : Bool)
  deriving DecidableEq, Repr, Inhabited

/-- Where a key may have begun. A required one stands at the indentation of a block mapping. -/
structure KeyStart where
  required : Bool
  token : Nat
  index : Nat
  line : Nat
  column : Nat
  deriving Repr

/-- `keys` holds, innermost first, the possible key of each open flow collection and of the block around. -/
structure Lexer where
  spot : Spot
  tokens : Array Token := #[]
  indent : Int := -1
  outer : List Int := []
  keyAllowed : Bool := true
  flow : Nat := 0
  keys : List (Option KeyStart) := [none]

namespace Lexer

def keyLimit : Nat := 1024

def push (l : Lexer) (t : Token) : Lexer := { l with tokens := l.tokens.push t }

def insert (l : Lexer) (i : Nat) (t : Token) : Lexer := { l with tokens := l.tokens.insertIdxIfInBounds i t }

def skip (l : Lexer) (n : Nat) : Lexer := { l with spot := l.spot.skip n }

def column (l : Lexer) : Int := l.spot.column

/-- A key that began on an earlier line or too far back is one no more. -/
def checkKey (spot : Spot) : Option KeyStart → Reading (Option KeyStart)
  | none => .ok none
  | some k =>
    if k.line < spot.line ∨ k.index + keyLimit < spot.index then
      if k.required then .error "a key has no colon" else .ok none
    else .ok (some k)

def dropStaleKeys (l : Lexer) : Reading Lexer :=
  (l.keys.mapM (checkKey l.spot)).map fun keys => { l with keys }

def dropKey (l : Lexer) : Reading Lexer :=
  match l.keys with
  | some k :: rest =>
    if k.required then .error "a key has no colon" else .ok { l with keys := none :: rest }
  | _ => .ok l

def keyHere (l : Lexer) : KeyStart :=
  { required := l.flow == 0 && l.indent == l.column
    token := l.tokens.size
    index := l.spot.index
    line := l.spot.line
    column := l.spot.column }

/-- Notes that a key may begin here. -/
def noteKey (l : Lexer) : Reading Lexer :=
  if l.keyAllowed then l.dropKey.map fun l => { l with keys := some l.keyHere :: l.keys.drop 1 }
  else .ok l

/-- Opens a block collection at a column, unless one is open there; its start goes before token `i`. -/
def openBlock (l : Lexer) (column : Nat) (i : Nat) (t : Token) : Lexer :=
  if l.flow = 0 ∧ l.indent < (column : Int) then
    { (l.insert i t) with indent := column, outer := l.indent :: l.outer }
  else l

/-- Closes the block collections that are indented further than `column`. -/
def closeBlocks (column : Int) (l : Lexer) : Lexer :=
  if l.flow ≠ 0 then l
  else
    let open_ := l.indent :: l.outer
    let kept := open_.dropWhile (column < ·)
    { l with
      tokens := l.tokens ++ Array.replicate (open_.length - kept.length) Token.blockEnd
      indent := kept.headD (-1)
      outer := kept.drop 1 }

/-- Past gaps, comments and line breaks. A line break allows a key again. -/
def skipToToken : Nat → Lexer → Lexer
  | 0, l => l
  | fuel + 1, l =>
    let tabs := l.flow ≠ 0 || !l.keyAllowed
    let start := if l.spot.index = 0 ∧ l.spot.rest.head? = some '\ufeff' then l.spot.skip 1 else l.spot
    let s := (start.skipWhile fun c => c == ' ' || (tabs && c == '\t')).skipComment
    if atBreak s.rest then
      skipToToken fuel { l with spot := s.skipBreak, keyAllowed := l.keyAllowed || l.flow == 0 }
    else { l with spot := s }

/-! ### Directives, tags and anchors -/

def versionNumber? (s : Spot) : Reading (Nat × Spot) :=
  let digits := s.rest.takeWhile isDigit
  if digits = [] ∨ 9 < digits.length then .error "a version number is missing or too long"
  else .ok (digits.foldl (fun n c => 10 * n + (c.toNat - 48)) 0, s.skip digits.length)

def readVersion (s : Spot) : Reading (Token × Spot) := do
  let (major, s) ← versionNumber? (s.skipWhile isGap)
  if s.rest.head? ≠ some '.' then .error "a version number has no point"
  else
    let (minor, s) ← versionNumber? (s.skip 1)
    return (.version major minor, s)

/-- `!`, `!!` or `!name!`; a name without second `!` starts a tag of its own. -/
def readHandle (directive : Bool) (s : Spot) : Reading (String × Spot) :=
  match s.rest with
  | '!' :: rest =>
    let name := rest.takeWhile isWordChar
    match rest.drop name.length with
    | '!' :: _ => .ok (String.ofList ('!' :: name ++ ['!']), s.skip (name.length + 2))
    | _ =>
      if directive && name ≠ [] then .error "a tag handle does not end"
      else .ok (String.ofList ('!' :: name), s.skip (name.length + 1))
  | _ => .error "a tag handle does not start with an exclamation mark"

def isTagChar (verbatim : Bool) (c : Char) : Bool :=
  isWordChar c || ";/?:@&=+$.!~*'()%".toList.contains c || (verbatim && [',', '[', ']'].contains c)

/-- Octets written as `%` and two hexadecimal digits each, as far as they go. -/
def escapedOctets : List Char → List UInt8 × Nat
  | '%' :: a :: b :: rest =>
    match digit? 16 a, digit? 16 b with
    | some x, some y =>
      let (octets, n) := escapedOctets rest
      (UInt8.ofNat (16 * x + y) :: octets, n + 3)
    | _, _ => ([], 0)
  | _ => ([], 0)

/-- Characters of a tag; a run of escaped octets has to be well-formed text. -/
def readTagText (verbatim : Bool) : Nat → List Char → Spot → Reading (List Char × Spot)
  | 0, text, s => .ok (text, s)
  | fuel + 1, text, s =>
    match s.rest with
    | [] => .ok (text, s)
    | c :: _ =>
      if !isTagChar verbatim c then .ok (text, s)
      else if c = '%' then
        let (octets, n) := escapedOctets s.rest
        if n = 0 then .error "an escape in a tag is incomplete"
        else match decodeUtf8 octets with
          | some t => readTagText verbatim fuel (text ++ t.toList) (s.skip n)
          | none => .error "escapes in a tag are no text"
      else readTagText verbatim fuel (text ++ [c]) (s.skip 1)

def readTagRest (verbatim : Bool) (lead : List Char) (s : Spot) : Reading (String × Spot) :=
  match readTagText verbatim (s.rest.length + 1) [] s with
  | .error e => .error e
  | .ok (text, s) =>
    if lead = [] ∧ text = [] then .error "a tag is empty"
    else .ok (String.ofList (lead.drop 1 ++ text), s)

def readTagDirective (s : Spot) : Reading (Token × Spot) := do
  let (handle, s) ← readHandle true (s.skipWhile isGap)
  if !atGap s.rest then .error "a tag handle is not followed by a space"
  else
    let (lead, s) ← readTagRest true [] (s.skipWhile isGap)
    if !atSpace s.rest then .error "a tag directive does not end"
    else return (.tagDirective handle lead, s)

def readDirective (s : Spot) : Reading (Token × Spot) := do
  let s := s.skip 1
  let name := s.rest.takeWhile isWordChar
  let after := s.skip name.length
  if name = [] ∨ !atSpace after.rest then .error "a directive has no proper name"
  else
    let (token, s) ←
      if name = "YAML".toList then readVersion after
      else if name = "TAG".toList then readTagDirective after
      else .error "a directive is unknown"
    let s := (s.skipWhile isGap).skipComment
    if !atBreakOrEnd s.rest then .error "text follows a directive"
    else return (token, s.skipBreak)

def readAnchorName (s : Spot) : Reading (String × Spot) :=
  let s := s.skip 1
  let name := s.rest.takeWhile isWordChar
  let after := s.skip name.length
  let ends := atSpace after.rest || after.rest.head?.any fun c => "?:,]\x7d%@`".toList.contains c
  if name = [] ∨ !ends then .error "an anchor has no proper name"
  else .ok (String.ofList name, after)

def readTag (inFlow : Bool) (s : Spot) : Reading (Token × Spot) := do
  let (token, s) ←
    match s.rest with
    | '!' :: '<' :: _ => do
      let (suffix, s) ← readTagRest true [] (s.skip 2)
      if s.rest.head? ≠ some '>' then .error "a verbatim tag does not end"
      else pure (Token.tag "" suffix, s.skip 1)
    | _ => do
      let (handle, s) ← readHandle false s
      if 1 < handle.length ∧ handle.toList.getLast? = some '!' then
        let (suffix, s) ← readTagRest false [] s
        pure (Token.tag handle suffix, s)
      else
        let (suffix, s) ← readTagRest false handle.toList s
        pure (if suffix = "" then Token.tag "" "!" else Token.tag "!" suffix, s)
  if atSpace s.rest || (inFlow && s.rest.head? == some ',') then return (token, s)
  else .error "a tag is not followed by a space"

/-! ### Tokens -/

/-- Directives and document marks close every block. -/
def atMargin (l : Lexer) : Reading Lexer :=
  (closeBlocks (-1) l).dropKey.map fun l => { l with keyAllowed := false }

def openFlow (l : Lexer) (t : Token) : Reading Lexer :=
  l.noteKey.map fun l =>
    { ((l.push t).skip 1) with keys := none :: l.keys, flow := l.flow + 1, keyAllowed := true }

def closeFlow (l : Lexer) (t : Token) : Reading Lexer :=
  l.dropKey.map fun l =>
    let l := if l.flow = 0 then l else { l with flow := l.flow - 1, keys := l.keys.drop 1 }
    { ((l.push t).skip 1) with keyAllowed := false }

def separate (l : Lexer) : Reading Lexer :=
  l.dropKey.map fun l => { ((l.push .flowEntry).skip 1) with keyAllowed := true }

def enterItem (l : Lexer) : Reading Lexer :=
  if l.flow = 0 ∧ !l.keyAllowed then .error "a sequence cannot start here"
  else (l.openBlock l.spot.column l.tokens.size .blockSequenceStart).dropKey.map fun l =>
    { ((l.push .blockEntry).skip 1) with keyAllowed := true }

def enterKey (l : Lexer) : Reading Lexer :=
  if l.flow = 0 ∧ !l.keyAllowed then .error "a mapping cannot start here"
  else (l.openBlock l.spot.column l.tokens.size .blockMappingStart).dropKey.map fun l =>
    { ((l.push .key).skip 1) with keyAllowed := l.flow == 0 }

def enterValue (l : Lexer) : Reading Lexer :=
  match l.keys with
  | some k :: rest =>
    let l := (l.insert k.token .key).openBlock k.column k.token .blockMappingStart
    .ok { ((l.push .value).skip 1) with keys := none :: rest, keyAllowed := false }
  | _ =>
    if l.flow = 0 ∧ !l.keyAllowed then .error "a mapping value cannot stand here"
    else
      let l := l.openBlock l.spot.column l.tokens.size .blockMappingStart
      .ok { ((l.push .value).skip 1) with keyAllowed := l.flow == 0 }

/-- A token that a key may start with. -/
def pushNoted (l : Lexer) (read : Lexer → Reading (Token × Spot)) : Reading Lexer := do
  let l ← l.noteKey
  let (token, spot) ← read l
  return { (l.push token) with spot, keyAllowed := false }

def pushBlockScalar (l : Lexer) (literal : Bool) : Reading Lexer := do
  let l ← l.dropKey
  let (text, spot) ← readBlock literal l.indent (l.spot.skip 1)
  return { (l.push (.scalar (String.ofList text) false)) with spot, keyAllowed := true }

def quotedToken (single : Bool) (l : Lexer) : Reading (Token × Spot) :=
  (readQuoted single (l.spot.rest.length + 1) [] (l.spot.skip 1)).map fun (text, s) =>
    (.scalar (String.ofList text) false, s)

def pushPlain (l : Lexer) : Reading Lexer := do
  let l ← l.noteKey
  let p ← readPlain (l.flow ≠ 0) (l.indent + 1).toNat (l.spot.rest.length + 1) [] {} l.spot
  return { (l.push (.scalar (String.ofList p.text) true)) with spot := p.spot, keyAllowed := p.broken }

/-- Whether a plain scalar can start here. -/
def startsPlain (inFlow : Bool) : List Char → Bool
  | [] => false
  | c :: rest =>
    if isGap c || isBreak c then false
    else if c == '-' then !atGap rest
    else if c == '?' || c == ':' then !inFlow && !atSpace rest
    else !",[]\x7b\x7d#&*!|>'\"%@`".toList.contains c

def readToken (l : Lexer) : Reading Lexer :=
  match l.spot.rest with
  | [] => (closeBlocks (-1) l).dropKey.map (·.push .streamEnd)
  | c :: rest =>
    if l.spot.column = 0 ∧ c = '%' then do
      let l ← l.atMargin
      let (token, spot) ← readDirective l.spot
      return { (l.push token) with spot }
    else if atDocumentMark l.spot then
      l.atMargin.map fun l => (l.push (if c = '-' then .documentStart else .documentEnd)).skip 3
    else match c with
      | '[' => l.openFlow .flowSequenceStart
      | '{' => l.openFlow .flowMappingStart
      | ']' => l.closeFlow .flowSequenceEnd
      | '}' => l.closeFlow .flowMappingEnd
      | ',' => l.separate
      | '*' => l.pushNoted fun l => (readAnchorName l.spot).map fun (n, s) => (.again n, s)
      | '&' => l.pushNoted fun l => (readAnchorName l.spot).map fun (n, s) => (.anchor n, s)
      | '!' => l.pushNoted fun l => readTag (l.flow ≠ 0) l.spot
      | '\'' => l.pushNoted (quotedToken true)
      | '"' => l.pushNoted (quotedToken false)
      | _ =>
        if c = '-' ∧ atSpace rest then l.enterItem
        else if c = '?' ∧ (l.flow ≠ 0 ∨ atSpace rest) then l.enterKey
        else if c = ':' ∧ (l.flow ≠ 0 ∨ atSpace rest) then l.enterValue
        else if c = '|' ∧ l.flow = 0 then l.pushBlockScalar true
        else if c = '>' ∧ l.flow = 0 then l.pushBlockScalar false
        else if startsPlain (l.flow ≠ 0) l.spot.rest then l.pushPlain
        else .error "a character cannot start any token"

/-- The next token, and the ends of blocks before it. -/
def step (l : Lexer) : Reading Lexer :=
  (skipToToken (l.spot.rest.length + 1) l).dropStaleKeys.bind fun l =>
    readToken (closeBlocks l.column l)

def run : Nat → Lexer → Reading Lexer
  | 0, _ => .error "the text does not end"
  | fuel + 1, l =>
    match l.step with
    | .error e => .error e
    | .ok l => if l.tokens.back? = some .streamEnd then .ok l else run fuel l

end Lexer

/-- Characters that a text may hold. -/
def isTextChar (c : Char) : Bool :=
  let n := c.toNat
  n = 0x9 || n = 0xA || n = 0xD || (0x20 ≤ n && n ≤ 0x7E) || n = 0x85 || (0xA0 ≤ n && n ≤ 0xFFFD)
    || 0x10000 ≤ n

def tokens? (text : List Char) : Reading (List Token) :=
  if text.all isTextChar then
    (Lexer.run (text.length + 2) { spot := { rest := text } }).map (·.tokens.toList)
  else .error "a control character stands in the text"

end Yaml
end NoteStencil
