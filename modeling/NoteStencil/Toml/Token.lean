import NoteStencil.Text.Numeral

/-! A TOML document as tokens. Texts between quotes are read here, so a token holds what a text says and no longer how
it was written; comments leave nothing behind, blanks do, since they may part words. -/

namespace NoteStencil
namespace Toml

inductive Token
  | gap (blanks : List Char)
  | newline
  | dot
  | equals
  | comma
  | openBracket
  | closeBracket
  | openBrace
  | closeBrace
  | quoted (text : String)
  /-- Text between triple quotes, which can be a value but no key. -/
  | block (text : String)
  | word (chars : List Char)
  deriving DecidableEq, Repr

def isGap (c : Char) : Bool := c == ' ' || c == '\t'

/-- Characters that may stand as they are in a comment, or in a text of one line. -/
def isPlain (c : Char) : Bool := c == '\t' || (0x20 ≤ c.toNat && c.toNat ≠ 0x7F)

/-! ### Escapes -/

def escapeLetter : Char → Option Char
  | 'b' => some '\x08'
  | 't' => some '\t'
  | 'n' => some '\n'
  | 'f' => some '\x0c'
  | 'r' => some '\r'
  | 'e' => some '\x1b'
  | '"' => some '"'
  | '\\' => some '\\'
  | _ => none

/-- Hexadecimal digits that follow a letter. -/
def escapeWidth : Char → Nat
  | 'x' => 2
  | 'u' => 4
  | 'U' => 8
  | _ => 0

/-- The character that an escape spells, from its letter on, and how many characters spell it. -/
def escape? : List Char → Option (Char × Nat)
  | [] => none
  | c :: rest =>
    let width := escapeWidth c
    if width = 0 then (escapeLetter c).map (·, 1)
    else if rest.length < width then none
    else ((natural? 16 (rest.take width)).bind codePoint?).map (·, width + 1)

/-- Length of the line break that stands here. -/
def breakLength : List Char → Nat
  | '\n' :: _ => 1
  | '\r' :: '\n' :: _ => 2
  | _ => 0

/-- Length of the blanks and line breaks that stand here. -/
def blankLength : List Char → Nat
  | '\r' :: '\n' :: rest => blankLength rest + 2
  | c :: rest => if isGap c || c == '\n' then blankLength rest + 1 else 0
  | [] => 0

/-- Whether only blanks stand before the next line break. -/
def endsLine (cs : List Char) : Bool := breakLength (cs.dropWhile isGap) ≠ 0

/-- A carriage return counts as a part of a line break only before a line feed. -/
def isBreakPart (c : Char) (rest : List Char) : Bool :=
  c == '\n' || (c == '\r' && rest.head? == some '\n')

/-! ### Texts -/

/-- Quotes that close a block: three, and up to two before them that belong to the text. -/
def closing? (quote : Char) (cs : List Char) : Option (List Char × Nat) :=
  let run := (cs.takeWhile (· == quote)).length
  if run < 3 then none else some (List.replicate (min (run - 3) 2) quote, min run 5)

/-- What a text says from here to its closing quotes, and how many characters it takes up. Escapes are read
between double quotes only, and line breaks only in a block. -/
def readText (quote : Char) (isBlock : Bool) : List Char → Option (List Char × Nat)
  | [] => none
  | c :: rest =>
    if c = quote then
      if isBlock then
        match closing? quote (c :: rest) with
        | some closing => some closing
        | none => (readText quote isBlock rest).map fun (text, n) => (c :: text, n + 1)
      else some ([], 1)
    else if c = '\\' ∧ quote = '"' then
      if isBlock && endsLine rest then
        let skipped := blankLength rest
        (readText quote isBlock (rest.drop skipped)).map fun (text, n) => (text, n + skipped + 1)
      else match escape? rest with
        | some (d, k) => (readText quote isBlock (rest.drop k)).map fun (text, n) => (d :: text, n + k + 1)
        | none => none
    else if isPlain c || (isBlock && isBreakPart c rest) then
      (readText quote isBlock rest).map fun (text, n) => (c :: text, n + 1)
    else none
termination_by cs => cs.length

/-- A line break right behind the opening quotes of a block does not count. -/
def readBlock (quote : Char) (cs : List Char) : Option (Token × Nat) :=
  let first := breakLength cs
  (readText quote true (cs.drop first)).map fun (text, n) => (.block (String.ofList text), n + first + 3)

def readLine (quote : Char) (cs : List Char) : Option (Token × Nat) :=
  (readText quote false cs).map fun (text, n) => (.quoted (String.ofList text), n + 1)

def isQuote (c : Char) : Bool := c == '"' || c == '\''

/-- A text from its opening quotes on. -/
def readQuoted (quote : Char) : List Char → Option (Token × Nat)
  | _ :: b :: c :: rest =>
    if b = quote ∧ c = quote then readBlock quote rest else readLine quote (b :: c :: rest)
  | _ :: rest => readLine quote rest
  | [] => none

/-! ### Tokens -/

def mark? : Char → Option Token
  | '\n' => some .newline
  | '.' => some .dot
  | '=' => some .equals
  | ',' => some .comma
  | '[' => some .openBracket
  | ']' => some .closeBracket
  | '{' => some .openBrace
  | '}' => some .closeBrace
  | _ => none

def isWordChar (c : Char) : Bool := !(isGap c || c == '#' || c == '\r' || (mark? c).isSome)

def isCommentChar (c : Char) : Bool := c != '\n' && c != '\r'

def tokens? : List Char → Option (List Token)
  | [] => some []
  | c :: rest =>
    match mark? c with
    | some mark => (tokens? rest).map (mark :: ·)
    | none =>
      if c = '\r' then
        if rest.head? = some '\n' then (tokens? (rest.drop 1)).map (.newline :: ·) else none
      else if isGap c then
        let more := rest.takeWhile isGap
        (tokens? (rest.drop more.length)).map (.gap (c :: more) :: ·)
      else if c = '#' then
        let comment := rest.takeWhile isCommentChar
        if comment.all isPlain then tokens? (rest.drop comment.length) else none
      else if isQuote c then
        match readQuoted c (c :: rest) with
        | some (token, n) => (tokens? (rest.drop (n - 1))).map (token :: ·)
        | none => none
      else
        let more := rest.takeWhile isWordChar
        (tokens? (rest.drop more.length)).map (.word (c :: more) :: ·)
termination_by cs => cs.length

end Toml
end NoteStencil
