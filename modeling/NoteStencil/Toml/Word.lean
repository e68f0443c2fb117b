import NoteStencil.Clock.Calendar
import NoteStencil.Text.Numeral
import NoteStencil.Toml.Value

/-! Values that are written without quotes and brackets: truth values, numbers, dates and times. -/

namespace NoteStencil
namespace Toml

/-! ### Numbers -/

/-- No underscore stands behind another or at the end. -/
def isSeparated : List Char → Bool
  | [] => true
  | [c] => c != '_'
  | c :: d :: rest => !(c == '_' && d == '_') && isSeparated (d :: rest)

/-- Digits with underscores between them, as digits alone. -/
def digitsOf? (cs : List Char) : Option (List Char) :=
  if cs.head? ≠ some '_' ∧ isSeparated cs then some (cs.filter (· ≠ '_')) else none

def naturalOf? (base : Nat) (cs : List Char) : Option Nat := (digitsOf? cs).bind (natural? base)

/-- A decimal has no needless zero in front. -/
def decimalOf? (cs : List Char) : Option Nat :=
  if cs.head? = some '0' ∧ cs ≠ ['0'] then none else naturalOf? 10 cs

/-- The sign in front, and what follows it. -/
def signed : List Char → Bool × List Char
  | '-' :: rest => (true, rest)
  | '+' :: rest => (false, rest)
  | cs => (false, cs)

/-- Whole numbers that fit 128 bits, signed or not. -/
def isLong (n : Int) : Bool := -(Int.pow 2 127) ≤ n && n < Int.pow 2 128

def int? (cs : List Char) : Option Int :=
  let n := match cs with
    | '0' :: 'x' :: rest => (naturalOf? 16 rest).map Int.ofNat
    | '0' :: 'o' :: rest => (naturalOf? 8 rest).map Int.ofNat
    | '0' :: 'b' :: rest => (naturalOf? 2 rest).map Int.ofNat
    | _ =>
      let (negative, body) := signed cs
      (decimalOf? body).map fun n => if negative then -(n : Int) else n
  n.filter isLong

def isNumberChar (c : Char) : Bool := isDigit c || c == '_'

/-- The part behind the point, which counts only when there is a point, and what follows it. -/
def fraction? : List Char → Option (List Char × List Char)
  | '.' :: rest =>
    let part := rest.takeWhile isNumberChar
    match digitsOf? part with
    | some (d :: digits) => some (d :: digits, rest.drop part.length)
    | _ => none
  | cs => some ([], cs)

def exponent? : List Char → Option Int
  | [] => some 0
  | c :: rest =>
    if c = 'e' ∨ c = 'E' then
      let (negative, body) := signed rest
      (naturalOf? 10 body).map fun n => if negative then -(n : Int) else n
    else none

/-- A finite number; one too large to be finite is refused. -/
def finite? (negative : Bool) (cs : List Char) : Option Binary64 :=
  let whole := cs.takeWhile isNumberChar
  let rest := cs.drop whole.length
  if rest = [] then none
  else match decimalOf? whole, fraction? rest with
    | some _, some (part, rest) =>
      match natural? 10 (whole.filter (· ≠ '_') ++ part), exponent? rest with
      | some n, some e =>
        match Binary64.ofDecimal negative n (e - part.length) with
        | .finite s m q => some (.finite s m q)
        | _ => none
      | _, _ => none
    | _, _ => none

def float? (cs : List Char) : Option Binary64 :=
  let (negative, body) := signed cs
  if body = ['i', 'n', 'f'] then some (.infinite negative)
  else if body = ['n', 'a', 'n'] then some .nan
  else finite? negative body

/-! ### Dates and times -/

/-- Two digits that stand for a number no greater than `most`. -/
def pair? (most : Nat) (a b : Char) : Option Nat := (natural? 10 [a, b]).filter (· ≤ most)

def isDay (year month day : Nat) : Bool :=
  match month with
  | 0 => false
  | m + 1 => 1 ≤ day && ((Date.monthLengths (Date.isLeap year))[m]?).any (day ≤ ·)

/-- The date that stands here, as it is spelled. -/
def date? : List Char → Option (List Char × List Char)
  | a :: b :: c :: d :: '-' :: e :: f :: '-' :: g :: h :: rest =>
    match natural? 10 [a, b, c, d], pair? 12 e f, pair? 31 g h with
    | some year, some month, some day =>
      if isDay year month day then some ([a, b, c, d, '-', e, f, '-', g, h], rest) else none
    | _, _, _ => none
  | _ => none

/-- Places behind the point of a second, nine at most and no zeros at the end. -/
def places (digits : List Char) : List Char :=
  match ((digits.take 9).reverse.dropWhile (· == '0')).reverse with
  | [] => []
  | kept => '.' :: kept

/-- The seconds that stand here, if any do. -/
def seconds? : List Char → Option (List Char × List Char)
  | ':' :: a :: b :: '.' :: rest =>
    let digits := rest.takeWhile isDigit
    if digits = [] then none
    else (pair? 60 a b).map fun _ => (':' :: a :: b :: places digits, rest.drop digits.length)
  | ':' :: a :: b :: rest => (pair? 60 a b).map fun _ => ([':', a, b], rest)
  | ':' :: _ => none
  | cs => some ([], cs)

def time? : List Char → Option (List Char × List Char)
  | a :: b :: ':' :: c :: d :: rest =>
    match pair? 23 a b, pair? 59 c d, seconds? rest with
    | some _, some _, some (seconds, rest) => some (a :: b :: ':' :: c :: d :: seconds, rest)
    | _, _, _ => none
  | _ => none

/-- The distance from universal time that follows a time of day with a date. -/
def offset? : List Char → Option (List Char)
  | [] => some []
  | [z] => if z = 'Z' ∨ z = 'z' then some ['Z'] else none
  | [sign, a, b, ':', c, d] =>
    match pair? 23 a b, pair? 59 c d with
    | some h, some m =>
      if sign = '+' ∨ sign = '-' then
        some ((if h = 0 ∧ m = 0 then '+' else sign) :: [a, b, ':', c, d])
      else none
    | _, _ => none
  | _ => none

def isTimeMark (c : Char) : Bool := c == 'T' || c == 't' || c == ' '

def moment? (cs : List Char) : Option (List Char) :=
  match date? cs with
  | some (date, []) => some date
  | some (date, mark :: rest) =>
    if isTimeMark mark then
      match time? rest with
      | some (time, rest) => (offset? rest).map fun offset => date ++ 'T' :: time ++ offset
      | none => none
    else none
  | none => match time? cs with
    | some (time, []) => some time
    | _ => none

/-! ### Any word -/

def wordValue? (cs : List Char) : Option Value :=
  if cs = ['t', 'r', 'u', 'e'] then some (.bool true)
  else if cs = ['f', 'a', 'l', 's', 'e'] then some (.bool false)
  else (((moment? cs).map fun m => .moment (String.ofList m)).or ((int? cs).map .int)).or
    ((float? cs).map .float)

end Toml
end NoteStencil
