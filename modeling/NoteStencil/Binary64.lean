/-! Binary floating point numbers of 64 bits, exactly: a finite one is `significand * 2 ^ exponent` with a sign.
Significands are below `2 ^ 53`, and at least `2 ^ 52` unless the exponent is the least one, so every number
has one form. Reading a decimal takes the nearest number and of two the one with the even significand;
writing takes the fewest digits that read back. -/

namespace NoteStencil

inductive Binary64
  | nan
  | infinite (negative : Bool)
  | finite (negative : Bool) (significand : Nat) (exponent : Int)
  deriving DecidableEq, Repr

namespace Binary64

def leastExponent : Int := -1074

def greatestExponent : Int := 971

def zero (negative : Bool) : Binary64 := finite negative 0 leastExponent

/-- Nearest integer to `num / den`, the even one of two. -/
def roundDiv (num den : Nat) : Nat :=
  let q := num / den
  let r := 2 * (num % den)
  if r < den then q else if den < r then q + 1 else if q % 2 = 0 then q else q + 1

def pow2 (e : Int) : Nat × Nat := (Nat.pow 2 e.toNat, Nat.pow 2 (-e).toNat)

def ofRatio (negative : Bool) (num den : Nat) : Binary64 :=
  if num = 0 then zero negative
  else
    let low := max ((Nat.log2 num : Int) - Nat.log2 den - 53) leastExponent
    let low := if Nat.pow 2 53 ≤ num * (pow2 low).2 / (den * (pow2 low).1) then low + 1 else low
    let m := roundDiv (num * (pow2 low).2) (den * (pow2 low).1)
    let (m, e) := if m = Nat.pow 2 53 then (Nat.pow 2 52, low + 1) else (m, low)
    if greatestExponent < e then infinite negative else finite negative m e

def decimalLength (n : Nat) : Nat := (Nat.toDigits 10 n).length

/-- The number nearest to `digits * 10 ^ exponent`. What is far out of range is not computed. -/
def ofDecimal (negative : Bool) (digits : Nat) (exponent : Int) : Binary64 :=
  if digits = 0 then zero negative
  else
    let size := decimalLength digits + exponent
    if 310 < size then infinite negative
    else if size < -330 then zero negative
    else ofRatio negative (digits * Nat.pow 10 exponent.toNat) (Nat.pow 10 (-exponent).toNat)

/-- Point of the grid of `10 ^ k` nearest to `significand * 2 ^ exponent` among those that read back as it,
of two equally near ones the even one. Quarters of the last place are the unit. -/
def onGrid? (significand : Nat) (exponent : Int) (k : Int) : Option Nat :=
  let unit := (pow2 exponent).1 * Nat.pow 10 (-k).toNat
  let scale := 4 * (pow2 exponent).2 * Nat.pow 10 k.toNat
  let value := 4 * significand * unit
  let below := if significand = Nat.pow 2 52 ∧ leastExponent < exponent then unit else 2 * unit
  let inside (d : Nat) : Bool :=
    let x := d * scale
    if significand % 2 = 0 then value - below ≤ x && x ≤ value + 2 * unit
    else value - below < x && x < value + 2 * unit
  let down := value / scale
  match 0 < down && inside down, inside (down + 1) with
  | true, true =>
    let rest := 2 * (value % scale)
    if rest < scale ∨ (rest = scale ∧ down % 2 = 0) then some down else some (down + 1)
  | true, false => some down
  | false, true => some (down + 1)
  | false, false => none

/-- The coarsest grid from `10 ^ k` down that has a point. -/
def shortestFrom (significand : Nat) (exponent : Int) : Nat → Int → Nat × Int
  | 0, k => (0, k)
  | n + 1, k =>
    match onGrid? significand exponent k with
    | some d => (d, k)
    | none => shortestFrom significand exponent n (k - 1)

/-- Fewest digits that read back, and the power of ten they are to be multiplied with. -/
def shortest (significand : Nat) (exponent : Int) : Nat × Int :=
  shortestFrom significand exponent 640 309

def isZero : Binary64 → Bool
  | finite _ 0 _ => true
  | _ => false

/-- Equal as numbers: the zeros are equal, and here every NaN equals every other. -/
def same (x y : Binary64) : Bool := x == y || (x.isZero && y.isZero)

end Binary64
end NoteStencil
