/-! A place in a text that is being read: what is left of it, and how many characters, lines and columns lie
behind. -/

namespace NoteStencil
namespace Yaml

structure Spot where
  rest : List Char
  index : Nat := 0
  line : Nat := 0
  column : Nat := 0
  deriving Repr

def isBreak (c : Char) : Bool :=
  c == '\n' || c == '\r' || c == '\x85' || c == '\u2028' || c == '\u2029'

def isGap (c : Char) : Bool := c == ' ' || c == '\t'

def isWordChar (c : Char) : Bool := c.isAlphanum || c == '_' || c == '-'

def atBreak : List Char → Bool
  | c :: _ => isBreak c
  | [] => false

def atGap : List Char → Bool
  | c :: _ => isGap c
  | [] => false

def atBreakOrEnd : List Char → Bool
  | c :: _ => isBreak c
  | [] => true

/-- A gap, a line break, or the end of the text. -/
def atSpace : List Char → Bool
  | c :: _ => isGap c || isBreak c
  | [] => true

/-- Three dashes or three dots that stand alone at the front of a line. -/
def atDocumentMark (s : Spot) : Bool :=
  s.column == 0 && match s.rest with
    | '-' :: '-' :: '-' :: r => atSpace r
    | '.' :: '.' :: '.' :: r => atSpace r
    | _ => false

namespace Spot

/-- Past `n` characters of the same line. -/
def skip (s : Spot) (n : Nat) : Spot :=
  { s with rest := s.rest.drop n, index := s.index + n, column := s.column + n }

/-- Past all characters from here that satisfy the test, none of them a line break. -/
def skipWhile (p : Char → Bool) (s : Spot) : Spot :=
  s.skip (s.rest.takeWhile p).length

/-- Past a line break, if there is one. -/
def skipBreak (s : Spot) : Spot :=
  match s.rest with
  | '\r' :: '\n' :: r => ⟨r, s.index + 2, s.line + 1, 0⟩
  | c :: r => if isBreak c then ⟨r, s.index + 1, s.line + 1, 0⟩ else s
  | [] => s

/-- What a line break reads as: separators of lines and paragraphs stay, all else is a line feed. -/
def breakText (s : Spot) : List Char :=
  match s.rest with
  | c :: _ => if c = '\u2028' ∨ c = '\u2029' then [c] else if isBreak c then ['\n'] else []
  | [] => []

def skipComment (s : Spot) : Spot :=
  match s.rest with
  | '#' :: _ => s.skipWhile (!isBreak ·)
  | _ => s

end Spot
end Yaml
end NoteStencil
