import NoteStencil.Text.Numeral
import NoteStencil.Yaml.Value

/-! What a plain scalar means: null, a truth value, a whole number, a floating point number, or else its own text.
Whole numbers may be written in four bases. A decimal with a zero in front is text, since some readers
take it for octal. -/

namespace NoteStencil
namespace Yaml

/-- Digits after a zero in front, with or without a sign. -/
def isZeroLed (cs : List Char) : Bool :=
  let body := match cs with
    | '-' :: r | '+' :: r => r
    | _ => cs
  match body with
  | '0' :: rest => rest ≠ [] && rest.all isDigit
  | _ => false

/-- The digits after a base mark, which no second sign may precede. -/
def marked? : List Char → Option Nat
  | '0' :: 'x' :: r => natural? 16 r
  | '0' :: 'o' :: r => natural? 8 r
  | '0' :: 'b' :: r => natural? 2 r
  | _ => none

def int? (cs : List Char) : Option Int :=
  let decimal (r : List Char) : Option Nat := if isZeroLed cs then none else natural? 10 r
  match cs with
  | '-' :: r => ((marked? r).or (decimal r)).map fun n => -(n : Int)
  | '+' :: r => ((marked? r).or (decimal r)).map fun n => (n : Int)
  | r => ((marked? r).or (decimal r)).map fun n => (n : Int)

/-- The exponent after a number, zero when there is none. -/
def exponent? : List Char → Option Int
  | [] => some 0
  | c :: rest =>
    if c = 'e' ∨ c = 'E' then
      match rest with
      | '-' :: r => (natural? 10 r).map fun n => -(n : Int)
      | '+' :: r => (natural? 10 r).map fun n => (n : Int)
      | r => (natural? 10 r).map fun n => (n : Int)
    else none

/-- Digits with a point among them or not, at least one digit, perhaps an exponent. -/
def unsignedDecimal? (negative : Bool) (cs : List Char) : Option Binary64 :=
  let whole := cs.takeWhile isDigit
  let rest := cs.dropWhile isDigit
  let (part, rest) := match rest with
    | '.' :: r => (r.takeWhile isDigit, r.dropWhile isDigit)
    | r => ([], r)
  match natural? 10 (whole ++ part), exponent? rest with
  | some n, some e => some (Binary64.ofDecimal negative n (e - part.length))
  | _, _ => none

def decimal? : List Char → Option Binary64
  | '-' :: r => unsignedDecimal? true r
  | '+' :: r => unsignedDecimal? false r
  | r => unsignedDecimal? false r

def infinityWords : List String := [".inf", ".Inf", ".INF"]

def nanWords : List String := [".nan", ".NaN", ".NAN"]

/-- A decimal too large for a finite number is no number. -/
def float? (cs : List Char) : Option Binary64 :=
  let unsigned := match cs with
    | '+' :: r => r
    | r => r
  let finite := match cs with
    | '+' :: '+' :: _ | '+' :: '-' :: _ => none
    | _ => match decimal? unsigned with
      | some (.finite s m e) => some (.finite s m e)
      | _ => none
  if infinityWords.contains (String.ofList unsigned) then some (.infinite false)
  else if (infinityWords.map ("-" ++ ·)).contains (String.ofList cs) then some (.infinite true)
  else if nanWords.contains (String.ofList cs) then some .nan
  else finite

def isNullWord (s : String) : Bool := ["~", "null", "Null", "NULL"].contains s

def bool? (s : String) : Option Bool :=
  if ["true", "True", "TRUE"].contains s then some true
  else if ["false", "False", "FALSE"].contains s then some false
  else none

/-- Whole numbers that fit 64 bits, signed or not. -/
def isWord (n : Int) : Bool := -(Int.pow 2 63) ≤ n && n < Int.pow 2 64

/-- Whole numbers that fit 128 bits, signed or not; one that does but fits no word is refused. -/
def isLong (n : Int) : Bool := -(Int.pow 2 127) ≤ n && n < Int.pow 2 128

/-- The whole number in a text, `some none` when there is one that cannot be kept. -/
def wholeNumber? (cs : List Char) : Option (Option Int) :=
  match int? cs with
  | some n => if isWord n then some (some n) else if isLong n then some none else none
  | none => none

/-- The value of a plain scalar; none when it is a whole number too long to keep. -/
def plainValue? (s : String) : Option Value :=
  if s = "" ∨ isNullWord s then some .null
  else match bool? s with
    | some b => some (.bool b)
    | none =>
      match wholeNumber? s.toList with
      | some (some n) => some (.number (.int n))
      | some none => none
      | none =>
        if isZeroLed s.toList then some (.string s)
        else match float? s.toList with
          | some x => some (.number (.float x))
          | none => some (.string s)

end Yaml
end NoteStencil
