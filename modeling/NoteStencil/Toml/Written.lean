import NoteStencil.Text.Numeral

/-! Texts and keys as a TOML document has them. A text is written between the plainest quotes that need no escape in
it, and with escapes only when no quotes do. -/

namespace NoteStencil
namespace Toml

/-- The ways to write a text: with or without escapes, on one line or as a block. -/
inductive Quoting
  | basic
  | literal
  | basicBlock
  | literalBlock
  deriving DecidableEq, Repr

/-- Controls that have to be escaped; tabs and line feeds are counted apart. -/
def isControl (c : Char) : Bool := c != '\t' && c != '\n' && (c.toNat < 0x20 || c.toNat = 0x7F)

/-- Most quotes of a kind that stand next to one another. -/
def longestRun (quote : Char) : Nat → List Char → Nat
  | n, [] => n
  | n, c :: rest => if c = quote then longestRun quote (n + 1) rest else max n (longestRun quote 0 rest)

/-- How a value is written. -/
def quotingOf (text : List Char) : Quoting :=
  let control := text.any isControl
  let broken := text.contains '\n'
  let slashed := text.contains '\\'
  if !control && !broken && !slashed && !text.contains '"' then .basic
  else if !control && !broken && !text.contains '\'' then .literal
  else if !control && !slashed && longestRun '"' 0 text ≤ 2 then .basicBlock
  else if !control && longestRun '\'' 0 text ≤ 2 then .literalBlock
  else if broken then .basicBlock
  else .basic

/-- A character between double quotes of one line. -/
def escaped (c : Char) : List Char :=
  match c with
  | '\x08' => ['\\', 'b']
  | '\t' => ['\\', 't']
  | '\n' => ['\\', 'n']
  | '\x0c' => ['\\', 'f']
  | '\r' => ['\\', 'r']
  | '"' => ['\\', '"']
  | '\\' => ['\\', '\\']
  | c => if c.toNat < 0x20 ∨ c.toNat = 0x7F then '\\' :: 'u' :: upperHex 4 c.toNat else [c]

/-- Text of a block between double quotes, `run` of which stand before it. A quote is escaped where it would be
the third, and line feeds never are. -/
def escapedBlock : Nat → List Char → List Char
  | _, [] => []
  | run, c :: rest =>
    if c = '"' then
      if run < 2 then '"' :: escapedBlock (run + 1) rest else '\\' :: '"' :: escapedBlock 0 rest
    else if c = '\n' then '\n' :: escapedBlock 0 rest
    else escaped c ++ escapedBlock 0 rest

/-- A block of several lines starts on a line of its own. -/
def blockOpening (text : List Char) : List Char := if text.contains '\n' then ['\n'] else []

def between (quote : List Char) (inside : List Char) : List Char := quote ++ inside ++ quote

def Quoting.write (text : List Char) : Quoting → List Char
  | basic => between ['"'] (text.flatMap escaped)
  | literal => between ['\''] text
  | basicBlock => between ['"', '"', '"'] (blockOpening text ++ escapedBlock 0 text)
  | literalBlock => between ['\'', '\'', '\''] (blockOpening text ++ text)

def writeText (text : String) : List Char := (quotingOf text.toList).write text.toList

def isBareKey (key : List Char) : Bool :=
  key ≠ [] && key.all fun c => c.isAlphanum || c == '_' || c == '-'

/-- How a key is written that cannot stand without quotes; blocks are no keys. -/
def keyQuotingOf (key : List Char) : Quoting :=
  let control := key.any isControl || key.contains '\n'
  if !control && !key.contains '\\' && !key.contains '"' then .basic
  else if !control && !key.contains '\'' then .literal
  else .basic

def writeKey (key : String) : List Char :=
  if isBareKey key.toList then key.toList else (keyQuotingOf key.toList).write key.toList

/-- A line that gives a key a text. -/
def writeEntry (key text : String) : List Char :=
  writeKey key ++ [' ', '=', ' '] ++ writeText text ++ ['\n']

def writeEntries (entries : List (String × String)) : List Char :=
  entries.flatMap fun e => writeEntry e.1 e.2

/-- A line that opens a table. -/
def writeHeader (key : String) : List Char := '[' :: writeKey key ++ [']', '\n']

end Toml
end NoteStencil
