/-! Text as octets. Decoding refuses overlong forms, surrogates and values past the last code point,
so that every text has exactly one encoding. The decoder is a machine over single octets: between two
octets it knows how many are owed, within which bounds the next must lie, and the value so far. -/

namespace NoteStencil

/-- A character on its way: octets still owed, bounds of the next one, value so far. -/
structure OpenChar where
  owed : Nat
  low : Nat
  high : Nat
  value : Nat

def OpenChar.closed : OpenChar := ⟨0, 0, 0, 0⟩

/-- What the first octet of a character announces. -/
def firstOctet (b : Nat) : Option OpenChar :=
  if b < 0x80 then some ⟨0, 0, 0, b⟩
  else if 0xC2 ≤ b ∧ b ≤ 0xDF then some ⟨1, 0x80, 0xBF, b - 0xC0⟩
  else if b = 0xE0 then some ⟨2, 0xA0, 0xBF, 0⟩
  else if b = 0xED then some ⟨2, 0x80, 0x9F, 0xD⟩
  else if 0xE1 ≤ b ∧ b ≤ 0xEF then some ⟨2, 0x80, 0xBF, b - 0xE0⟩
  else if b = 0xF0 then some ⟨3, 0x90, 0xBF, 0⟩
  else if 0xF1 ≤ b ∧ b ≤ 0xF3 then some ⟨3, 0x80, 0xBF, b - 0xF0⟩
  else if b = 0xF4 then some ⟨3, 0x80, 0x8F, 4⟩
  else none

def OpenChar.nextOctet (o : OpenChar) (b : Nat) : Option OpenChar :=
  if o.low ≤ b ∧ b ≤ o.high then some ⟨o.owed - 1, 0x80, 0xBF, o.value * 64 + (b - 0x80)⟩ else none

def OpenChar.step (o : OpenChar) (b : UInt8) : Option OpenChar :=
  if o.owed = 0 then firstOctet b.toNat else o.nextOctet b.toNat

def OpenChar.run : OpenChar → List UInt8 → Option (List Char)
  | o, [] => if o.owed = 0 then some [] else none
  | o, b :: rest =>
    match o.step b with
    | none => none
    | some o' => if o'.owed = 0 then (o'.run rest).map (Char.ofNat o'.value :: ·) else o'.run rest

def decodeUtf8 (octets : List UInt8) : Option String :=
  (OpenChar.closed.run octets).map String.ofList

def encodeUtf8 (s : String) : List UInt8 :=
  s.toList.flatMap String.utf8EncodeChar

end NoteStencil
