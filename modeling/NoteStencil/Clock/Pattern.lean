import NoteStencil.Clock.Calendar

/-! Patterns for dates and times: text in which `%` and a letter stand for a part of a moment. A pattern is read
as a whole first, so one bad directive makes all of it unusable. All moments are in universal time. -/

namespace NoteStencil

inductive Pad
  | zero
  | blank
  | bare
  deriving DecidableEq, Repr

inductive Field
  | year | century | yearOfCentury
  | isoYear | isoYearOfCentury | isoWeek
  | quarter | month | day | ordinal
  | weekFromSunday | weekFromMonday | dayFromSunday | dayFromMonday
  | hour | hourOfHalf | minute | second | nano | timestamp
  deriving DecidableEq, Repr

inductive Item
  | literal (c : Char)
  | field (f : Field) (pad : Pad)
  | monthName (long : Bool)
  | dayName (long : Bool)
  | half (capital : Bool)
  | fraction (point : Bool) (digits : Nat)
  | fittingFraction
  | offset (colons : Nat)
  | zone
  deriving DecidableEq, Repr

namespace Pattern

def isoDate : List Item :=
  [.field .year .zero, .literal '-', .field .month .zero, .literal '-', .field .day .zero]

def clockTime : List Item :=
  [.field .hour .zero, .literal ':', .field .minute .zero, .literal ':', .field .second .zero]

def slashDate : List Item :=
  [.field .month .zero, .literal '/', .field .day .zero, .literal '/', .field .yearOfCentury .zero]

/-- What a directive of one letter stands for. -/
def letter : Char → Option (List Item)
  | 'A' => some [.dayName true]
  | 'B' => some [.monthName true]
  | 'C' => some [.field .century .zero]
  | 'D' | 'x' => some slashDate
  | 'F' => some isoDate
  | 'G' => some [.field .isoYear .zero]
  | 'H' => some [.field .hour .zero]
  | 'I' => some [.field .hourOfHalf .zero]
  | 'M' => some [.field .minute .zero]
  | 'P' => some [.half false]
  | 'R' => some [.field .hour .zero, .literal ':', .field .minute .zero]
  | 'S' => some [.field .second .zero]
  | 'T' | 'X' => some clockTime
  | 'U' => some [.field .weekFromSunday .zero]
  | 'V' => some [.field .isoWeek .zero]
  | 'W' => some [.field .weekFromMonday .zero]
  | 'Y' => some [.field .year .zero]
  | 'Z' => some [.zone]
  | 'a' => some [.dayName false]
  | 'b' | 'h' => some [.monthName false]
  | 'c' => some ([.dayName false, .literal ' ', .monthName false, .literal ' ', .field .day .blank,
      .literal ' '] ++ clockTime ++ [.literal ' ', .field .year .zero])
  | 'd' => some [.field .day .zero]
  | 'e' => some [.field .day .blank]
  | 'f' => some [.field .nano .zero]
  | 'g' => some [.field .isoYearOfCentury .zero]
  | 'j' => some [.field .ordinal .zero]
  | 'k' => some [.field .hour .blank]
  | 'l' => some [.field .hourOfHalf .blank]
  | 'm' => some [.field .month .zero]
  | 'n' => some [.literal '\n']
  | 'p' => some [.half true]
  | 'q' => some [.field .quarter .bare]
  | 'r' => some ([.field .hourOfHalf .zero, .literal ':', .field .minute .zero, .literal ':',
      .field .second .zero, .literal ' ', .half true])
  | 's' => some [.field .timestamp .bare]
  | 't' => some [.literal '\t']
  | 'u' => some [.field .dayFromMonday .bare]
  | 'v' => some [.field .day .blank, .literal '-', .monthName false, .literal '-', .field .year .zero]
  | 'w' => some [.field .dayFromSunday .bare]
  | 'y' => some [.field .yearOfCentury .zero]
  | 'z' => some [.offset 0]
  | '+' => some (isoDate ++ [.literal 'T'] ++ clockTime ++ [.fittingFraction, .offset 1])
  | '%' => some [.literal '%']
  | _ => none

/-- Padding can be chosen for a single number only. -/
def padded (pad : Pad) (c : Char) : Option (List Item) :=
  match letter c with
  | some [.field f _] => some [.field f pad]
  | _ => none

/-- The items of one directive, and how many characters it takes after the `%`. -/
def directive : List Char → Option (List Item × Nat)
  | '-' :: c :: _ => (padded .bare c).map (·, 2)
  | '0' :: c :: _ => (padded .zero c).map (·, 2)
  | '_' :: c :: _ => (padded .blank c).map (·, 2)
  | ':' :: 'z' :: _ => some ([.offset 1], 2)
  | ':' :: ':' :: 'z' :: _ => some ([.offset 2], 3)
  | ':' :: ':' :: ':' :: 'z' :: _ => some ([.offset 3], 4)
  | '.' :: 'f' :: _ => some ([.fittingFraction], 2)
  | '.' :: '3' :: 'f' :: _ => some ([.fraction true 3], 3)
  | '.' :: '6' :: 'f' :: _ => some ([.fraction true 6], 3)
  | '.' :: '9' :: 'f' :: _ => some ([.fraction true 9], 3)
  | '3' :: 'f' :: _ => some ([.fraction false 3], 2)
  | '6' :: 'f' :: _ => some ([.fraction false 6], 2)
  | '9' :: 'f' :: _ => some ([.fraction false 9], 2)
  | c :: _ => (letter c).map (·, 1)
  | [] => none

/-- The items of a pattern, unless it holds a bad directive. -/
def items : List Char → Option (List Item)
  | [] => some []
  | c :: rest =>
    if c = '%' then
      match directive rest with
      | some (found, n) => (items (rest.drop n)).map (found ++ ·)
      | none => none
    else (items rest).map (.literal c :: ·)
termination_by cs => cs.length

def fill (c : Char) (width : Nat) (digits : String) : String :=
  String.ofList (List.replicate (width - digits.length) c) ++ digits

/-- Zeros stand between the sign and the digits, blanks before the sign. -/
def number (pad : Pad) (width : Nat) (plus : Bool) (n : Int) : String :=
  let sign := if n < 0 then "-" else if plus then "+" else ""
  let digits := toString n.natAbs
  match pad with
  | .bare => sign ++ digits
  | .zero => sign ++ fill '0' (width - sign.length) digits
  | .blank => fill ' ' width (sign ++ digits)

/-- Two places. What is beyond 99 shows in the character for the tens, as it has no third place. -/
def twoPlaces (pad : Pad) (n : Nat) : String :=
  let tens := match n / 10, pad with
    | 0, .bare => ""
    | 0, .blank => " "
    | t, _ => String.singleton (Char.ofNat (48 + t))
  tens ++ toString (n % 10)

/-- Four places; a year beyond them has a sign and a place more. -/
def yearText (pad : Pad) (year : Int) : String :=
  if 0 ≤ year ∧ year < 10000 then number pad 4 false year else number pad 5 true year

def fieldText (m : Moment) (pad : Pad) : Field → String
  | .year => yearText pad m.date.year
  | .century => twoPlaces pad (m.date.year / 100 % 256).toNat
  | .yearOfCentury => twoPlaces pad (m.date.year % 100).toNat
  | .isoYear => yearText pad m.isoWeek.1
  | .isoYearOfCentury => twoPlaces pad (m.isoWeek.1 % 100).toNat
  | .isoWeek => twoPlaces pad m.isoWeek.2
  | .quarter => toString ((m.date.month + 2) / 3)
  | .month => twoPlaces pad m.date.month
  | .day => twoPlaces pad m.date.day
  | .ordinal => number pad 3 false m.date.ordinal
  | .weekFromSunday => twoPlaces pad (m.weekOfYear 1)
  | .weekFromMonday => twoPlaces pad (m.weekOfYear 0)
  | .dayFromSunday => toString ((m.weekday + 1) % 7)
  | .dayFromMonday => toString (m.weekday + 1)
  | .hour => twoPlaces pad m.hour
  | .hourOfHalf => twoPlaces pad ((m.hour + 11) % 12 + 1)
  | .minute => twoPlaces pad m.minute
  | .second => twoPlaces pad m.second
  | .nano => number pad 9 false m.instant.nanos
  | .timestamp => number pad 9 false m.instant.seconds

def monthNames : List String :=
  ["January", "February", "March", "April", "May", "June", "July", "August", "September", "October",
   "November", "December"]

def dayNames : List String :=
  ["Monday", "Tuesday", "Wednesday", "Thursday", "Friday", "Saturday", "Sunday"]

def nameText (names : List String) (long : Bool) (n : Nat) : String :=
  let name := names.getD n ""
  if long then name else String.ofList (name.toList.take 3)

def fractionText (nanos : Nat) (digits : Nat) : String :=
  fill '0' digits (toString (nanos / Nat.pow 10 (9 - digits)))

/-- No fraction when it is zero, else as many places of three, six and nine as it needs. -/
def fittingText (nanos : Nat) : String :=
  if nanos = 0 then ""
  else if nanos % 1000000 = 0 then "." ++ fractionText nanos 3
  else if nanos % 1000 = 0 then "." ++ fractionText nanos 6
  else "." ++ fractionText nanos 9

def offsetText : Nat → String
  | 0 => "+0000"
  | 1 => "+00:00"
  | 2 => "+00:00:00"
  | _ => "+00"

def itemText (m : Moment) : Item → String
  | .literal c => String.singleton c
  | .field f pad => fieldText m pad f
  | .monthName long => nameText monthNames long (m.date.month - 1)
  | .dayName long => nameText dayNames long m.weekday
  | .half capital =>
    if m.hour < 12 then (if capital then "AM" else "am") else if capital then "PM" else "pm"
  | .fraction point digits => (if point then "." else "") ++ fractionText m.instant.nanos digits
  | .fittingFraction => fittingText m.instant.nanos
  | .offset colons => offsetText colons
  | .zone => offsetText 1

/-- The moment in the pattern, unless the pattern is bad. -/
def format? (pattern : String) (t : Instant) : Option String :=
  (items pattern.toList).map fun is => String.join (is.map (itemText (Moment.ofInstant t)))

end Pattern
end NoteStencil
