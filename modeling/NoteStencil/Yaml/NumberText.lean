import NoteStencil.Yaml.Value

/-! Numbers as text. A float always shows that it is one: with a point, or with an exponent where its point would
stand too far from its digits. -/

namespace NoteStencil
namespace Yaml

/-- Where the point of a float may stand, counted from the front of its digits. -/
structure FloatLayout where
  furthestRight : Int
  furthestLeft : Int

/-- Up to sixteen places before the point, and up to four zeros between the point and the digits. -/
def floatLayout : FloatLayout := ⟨16, -4⟩

def zeros (n : Nat) : List Char := List.replicate n '0'

/-- Digits to be multiplied with a power of ten, in positional form or with an exponent. -/
def FloatLayout.show (l : FloatLayout) (digits : List Char) (exponent : Int) : List Char :=
  let point := digits.length + exponent
  if 0 ≤ exponent ∧ point ≤ l.furthestRight then digits ++ zeros exponent.toNat ++ ['.', '0']
  else if 0 < point ∧ point ≤ l.furthestRight then
    digits.take point.toNat ++ '.' :: digits.drop point.toNat
  else if l.furthestLeft ≤ point ∧ point ≤ 0 then '0' :: '.' :: zeros (-point).toNat ++ digits
  else
    let tail := match digits with
      | d :: e :: rest => d :: '.' :: e :: rest
      | short => short
    tail ++ 'e' :: (toString (point - 1)).toList

def floatText : Binary64 → String
  | .nan => ".nan"
  | .infinite negative => if negative then "-.inf" else ".inf"
  | .finite negative m e =>
    let body := if m = 0 then ['0', '.', '0'] else
      let (digits, exponent) := Binary64.shortest m e
      floatLayout.show (Nat.toDigits 10 digits) exponent
    String.ofList (if negative then '-' :: body else body)

def Number.text : Number → String
  | int n => toString n
  | float x => floatText x

end Yaml
end NoteStencil
