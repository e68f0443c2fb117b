import NoteStencil.Text.Hidden

/-! Text between double quotes, as it is shown to someone who looks for a mistake in it: whatever could not be seen
is written as an escape. -/

namespace NoteStencil

def hexDigits (n : Nat) : String := String.ofList (Nat.toDigits 16 n)

def escapeChar (c : Char) : String :=
  match c with
  | '\x00' => "\\0"
  | '\t' => "\\t"
  | '\n' => "\\n"
  | '\r' => "\\r"
  | '"' => "\\\""
  | '\\' => "\\\\"
  | c => if isHidden c then "\\u\x7b" ++ hexDigits c.toNat ++ "\x7d" else String.singleton c

def escapeText (s : String) : String :=
  "\"" ++ String.join (s.toList.map escapeChar) ++ "\""

end NoteStencil
