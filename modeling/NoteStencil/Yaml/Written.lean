import NoteStencil.Yaml.NumberText
import NoteStencil.Yaml.Scalar
import NoteStencil.Yaml.Spot

/-! How values are written. Collections that are not empty stand as blocks, two columns to a level; a sequence
behind a key is not indented further. Text is written plainly where it reads back as itself, as a literal block
where it has line feeds, and between quotes else. Keys that are long, broken or collections get a mark of
their own. -/

namespace NoteStencil
namespace Yaml

/-! ### Scalars -/

def isPrintable (c : Char) : Bool :=
  let n := c.toNat
  n = 0xA || (0x20 ≤ n && n ≤ 0x7E) || (0xA0 ≤ n && n ≤ 0xFFFD && n ≠ 0xFEFF) || 0x10000 ≤ n

def isSpaceChar (c : Char) : Bool := isGap c || isBreak c

/-- A mark that would give the front of a text another meaning. -/
def marksFront : List Char → Bool
  | [] => false
  | '-' :: '-' :: '-' :: _ => true
  | '.' :: '.' :: '.' :: _ => true
  | c :: rest =>
    "#,[]\x7b\x7d&*!|>'\"%@`".toList.contains c || (['?', ':', '-'].contains c && atSpace rest)

/-- A colon before a space or a hash behind one; `previous` is the character before the text. -/
def marksInside (previous : Char) : List Char → Bool
  | [] => false
  | c :: rest => (c == ':' && atSpace rest) || (c == '#' && isSpaceChar previous) || marksInside c rest

/-- Two neighbours of which the first satisfies `p` and the second `q`. -/
def hasNeighbours (p q : Char → Bool) : List Char → Bool
  | a :: b :: rest => (p a && q b) || hasNeighbours p q (b :: rest)
  | _ => false

/-- What the characters of a text leave open for its form. -/
structure Shape where
  broken : Bool
  plain : Bool
  single : Bool
  block : Bool

def shape (cs : List Char) : Shape :=
  let broken := cs.any isBreak
  let space (c : Char) : Bool := c == ' '
  let unclear := hasNeighbours space isBreak cs || cs.any (!isPrintable ·)
  let breakSpace := hasNeighbours isBreak space cs
  let edge := (cs.head?.any fun c => space c || isBreak c) || cs.getLast?.any fun c => space c || isBreak c
  let marks := marksFront cs || (match cs with
    | [] => false
    | c :: rest => marksInside c rest)
  { broken
    plain := !edge && !breakSpace && !unclear && !broken && !marks
    single := !breakSpace && !unclear
    block := !(cs.getLast?.any space) && !unclear && cs ≠ [] }

inductive Form
  | plain
  | single
  | double
  | literal
  deriving DecidableEq

/-- Text that a reader would not take for text. -/
def isMistakable (s : String) : Bool :=
  isZeroLed s.toList || match plainValue? s with
    | some (.string _) => false
    | _ => true

def formOf (key : Bool) (s : String) : Form :=
  let w := shape s.toList
  if key && w.broken then .double
  else
    let wanted : Form := if s.toList.contains '\n' then .literal
      else if isMistakable s || !w.plain then .single else .plain
    match wanted with
    | .literal => if w.block && !key then .literal else .double
    | .single => if w.single then .single else .double
    | form => form

def spaces (n : Nat) : List Char := List.replicate n ' '

/-- Text between single quotes, with quotes doubled and indentation behind line breaks. -/
def singleQuoted (indent : Nat) : Bool → List Char → List Char
  | broken, [] => (if broken then spaces indent else []) ++ ['\'']
  | broken, c :: rest =>
    if isBreak c then c :: singleQuoted indent true rest
    else (if broken then spaces indent else []) ++
      (if c = '\'' then ['\'', '\''] else [c]) ++ singleQuoted indent false rest

def escapedChar (c : Char) : List Char :=
  match c with
  | '\x00' => ['\\', '0']
  | '\x07' => ['\\', 'a']
  | '\x08' => ['\\', 'b']
  | '\t' => ['\\', 't']
  | '\n' => ['\\', 'n']
  | '\x0b' => ['\\', 'v']
  | '\x0c' => ['\\', 'f']
  | '\r' => ['\\', 'r']
  | '\x1b' => ['\\', 'e']
  | '"' => ['\\', '"']
  | '\\' => ['\\', '\\']
  | '\x85' => ['\\', 'N']
  | '\u2028' => ['\\', 'L']
  | '\u2029' => ['\\', 'P']
  | c =>
    if isPrintable c then [c]
    else if c.toNat ≤ 0xFF then '\\' :: 'x' :: upperHex 2 c.toNat
    else if c.toNat ≤ 0xFFFF then '\\' :: 'u' :: upperHex 4 c.toNat
    else '\\' :: 'U' :: upperHex 8 c.toNat

/-- The indentation digit is needed when the text starts with a space or a break. -/
def literalHeader (cs : List Char) : List Char :=
  let hint := if cs.head?.any fun c => c == ' ' || isBreak c then ['2'] else []
  let chomp := match cs.reverse with
    | [] => ['-']
    | [c] => if isBreak c then ['+'] else ['-']
    | c :: d :: _ => if !isBreak c then ['-'] else if isBreak d then ['+'] else []
  '|' :: hint ++ chomp ++ ['\n']

/-- Lines of a literal block; a line without text gets no indentation. -/
def literalLines (indent : Nat) : Bool → List Char → List Char
  | _, [] => []
  | fresh, c :: rest =>
    if isBreak c then c :: literalLines indent true rest
    else (if fresh then spaces indent else []) ++ c :: literalLines indent false rest

def textForm (key : Bool) (indent : Nat) (s : String) : List Char :=
  let cs := s.toList
  match formOf key s with
  | .plain => cs
  | .single => '\'' :: singleQuoted indent false cs
  | .double => '"' :: cs.flatMap escapedChar ++ ['"']
  | .literal => literalHeader cs ++ literalLines indent true cs

/-! ### Tags -/

def isBareTagChar (c : Char) : Bool :=
  isWordChar c || ";/?:@&=+$,_.~*'()[]".toList.contains c

def percentOctet (b : UInt8) : List Char := '%' :: upperHex 2 b.toNat

def tagSuffix (cs : List Char) : List Char :=
  cs.flatMap fun c =>
    if isBareTagChar c then [c] else (String.utf8EncodeChar c).flatMap percentOctet

/-- A tag as it is written: its name behind a `!`, unless the name starts with one. -/
def fullTag (tag : String) : List Char :=
  match (Value.tagName tag).toList with
  | '!' :: rest => '!' :: rest
  | name => '!' :: name

/-- Only a `!` would be lost as a suffix and is written in full. -/
def tagForm (tag : String) : List Char :=
  match fullTag tag with
  | ['!'] => '!' :: '<' :: tagSuffix ['!'] ++ ['>']
  | full => '!' :: tagSuffix (full.drop 1)

/-! ### Collections -/

/-- Longest key, in octets, that needs no mark of its own. -/
def plainKeyLimit : Nat := 128

/-- Keys that stand before a colon on one line; `used` octets are taken by a tag. -/
def isPlainKey (used : Nat) : Value → Bool
  | .string s => !s.toList.any isBreak && used + s.utf8ByteSize ≤ plainKeyLimit
  | .sequence xs => xs.isEmpty && used ≤ plainKeyLimit
  | .mapping es => es.isEmpty && used ≤ plainKeyLimit
  | .number n => used + n.text.utf8ByteSize ≤ plainKeyLimit
  | .bool b => used + (toString b).utf8ByteSize ≤ plainKeyLimit
  | .null => used + 4 ≤ plainKeyLimit
  | .tagged tag v => isPlainKey (used + (String.ofList (fullTag tag)).utf8ByteSize) v

/-- Output is kept with its last character in front. -/
abbrev Output := List Char

def Output.put (out : Output) (cs : List Char) : Output := cs.reverse ++ out

/-- On a new line, unless the output has just ended one. -/
def Output.line (out : Output) (indent : Nat) : Output :=
  let ended := match out with
    | [] => []
    | c :: _ => if isBreak c then out else '\n' :: out
  spaces indent ++ ended

def Output.spaced (out : Output) (gap : Bool) (cs : List Char) : Output :=
  Output.put (if gap then ' ' :: out else out) cs

/-- Where a node is written: the indentation around it, whether it follows a mark on whose line its first
entry can stand, whether it belongs to a mapping, whether it is a key before a colon, and whether a space
has to come first. -/
structure Site where
  indent : Nat
  marked : Bool := false
  inMapping : Bool := false
  isKey : Bool := false
  gap : Bool := true

def Site.fresh (s : Site) (out : Output) (indent : Nat) : Output :=
  if s.marked then ' ' :: out else out.line indent

mutual
def writeNode (s : Site) : Value → Output → Output
  | .null, out => out.spaced s.gap "null".toList
  | .bool b, out => out.spaced s.gap (toString b).toList
  | .number n, out => out.spaced s.gap n.text.toList
  | .string text, out => out.spaced s.gap (textForm s.isKey (s.indent + 2) text)
  | .tagged tag v, out =>
    writeNode { s with marked := false, gap := true } v (out.spaced s.gap (tagForm tag))
  | .sequence [], out => out.spaced s.gap ['[', ']']
  | .sequence (x :: xs), out =>
    let indent := if s.inMapping && !s.marked then s.indent else s.indent + 2
    writeItems indent xs
      (writeNode { indent, marked := true } x ((s.fresh out indent).put ['-']))
  | .mapping [], out => out.spaced s.gap ['\x7b', '\x7d']
  | .mapping (e :: es), out =>
    writeEntries (s.indent + 2) es (writeEntry (s.indent + 2) e (s.fresh out (s.indent + 2)))

def writeItems (indent : Nat) : List Value → Output → Output
  | [], out => out
  | x :: xs, out =>
    writeItems indent xs (writeNode { indent, marked := true } x ((out.line indent).put ['-']))

def writeEntry (indent : Nat) : Value × Value → Output → Output
  | (k, v), out =>
    if isPlainKey 0 k then
      writeNode { indent, inMapping := true } v
        ((writeNode { indent, inMapping := true, isKey := true, gap := false } k out).put [':'])
    else
      let out := writeNode { indent, marked := true, inMapping := true } k (out.put ['?'])
      writeNode { indent, marked := true, inMapping := true } v ((out.line indent).put [':'])

def writeEntries (indent : Nat) : List (Value × Value) → Output → Output
  | [], out => out
  | e :: es, out => writeEntries indent es (writeEntry indent e (out.line indent))
end

/-! ### What cannot be written -/

/-- Keys that would be taken for the tag of the single entry that they start. -/
def isTagLike : Value → Bool
  | .tagged _ _ => true
  | .mapping [_] => true
  | _ => false

mutual
/-- A tag on a tag has no written form, nor has a key like a tag in a mapping of one entry, unless that
mapping has a tag of its own. -/
def isWritable (underTag : Bool) : Value → Bool
  | .tagged _ v => !underTag && isWritable true v
  | .sequence xs => areWritable xs
  | .mapping es =>
    (underTag || match es with
      | [e] => !isTagLike e.1
      | _ => true) && entriesWritable es
  | _ => true

def areWritable : List Value → Bool
  | [] => true
  | x :: xs => isWritable false x && areWritable xs

def entryWritable : Value × Value → Bool
  | (k, v) => isWritable false k && isWritable false v

def entriesWritable : List (Value × Value) → Bool
  | [] => true
  | e :: es => entryWritable e && entriesWritable es
end

/-- A mapping as a document of its own. -/
def write? (m : Mapping) : Option String :=
  if isWritable false (.mapping m) then
    let out := match m with
      | [] => Output.put [] ['\x7b', '\x7d']
      | _ => writeEntries 0 m []
    some (String.ofList (out.line 0).reverse)
  else none

end Yaml
end NoteStencil
