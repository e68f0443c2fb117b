import NoteStencil.Toml.Token
import NoteStencil.Toml.Word

/-! A TOML document from its text. Statements stand on lines of their own: a key with its value, or a header that
opens a table for the statements after it. Brackets may hold line breaks, and may be nested eighty deep. -/

namespace NoteStencil
namespace Toml

def skipGap : List Token → List Token
  | .gap _ :: rest => rest
  | ts => ts

def skipLines : List Token → List Token
  | .gap _ :: rest | .newline :: rest => skipLines rest
  | ts => ts

def isKeyChar (c : Char) : Bool := c.isAlphanum || c == '_' || c == '-'

/-- One part of a key, with the blanks around it. -/
def keyPart? (ts : List Token) : Option (String × List Token) :=
  match skipGap ts with
  | .quoted text :: rest => some (text, skipGap rest)
  | .word chars :: rest => if chars.all isKeyChar then some (String.ofList chars, skipGap rest) else none
  | _ => none

/-- A key with dots, as its parts; `fuel` bounds their number. -/
def keyParts? : Nat → List Token → Option (List String × List Token)
  | 0, _ => none
  | fuel + 1, ts =>
    match keyPart? ts with
    | none => none
    | some (part, .dot :: rest) => (keyParts? fuel rest).map fun (parts, rest) => (part :: parts, rest)
    | some (part, rest) => some ([part], rest)

def key? (ts : List Token) : Option (List String × List Token) := keyParts? (ts.length + 1) ts

/-- Words and the dots that join them. -/
def joinWords : List Token → List Char × List Token
  | .word chars :: rest =>
    let (more, rest) := joinWords rest
    (chars ++ more, rest)
  | .dot :: rest =>
    let (more, rest) := joinWords rest
    ('.' :: more, rest)
  | ts => ([], ts)

/-- A value without quotes and brackets; a single space may stand between a date and a time of day. -/
def bareValue? (ts : List Token) : Option (Value × List Token) :=
  let (chars, rest) := joinWords ts
  match date? chars, rest with
  | some (_, []), .gap [' '] :: .word time :: more =>
    let (time, rest) := joinWords (.word time :: more)
    (wordValue? (chars ++ ' ' :: time)).map (·, rest)
  | _, _ => (wordValue? chars).map (·, rest)

def nestingLimit : Nat := 80

mutual

/-- The value that stands here, with room for `depth` brackets around one another. -/
def value? : Nat → Nat → List Token → Option (Value × List Token)
  | 0, _, _ => none
  | fuel + 1, depth, ts =>
    match ts, depth with
    | .quoted text :: rest, _ | .block text :: rest, _ => some (.text text, rest)
    | .openBracket :: rest, depth + 1 => items? fuel depth [] rest
    | .openBrace :: rest, depth + 1 => fields? fuel depth [] rest
    | .openBracket :: _, 0 | .openBrace :: _, 0 => none
    | ts, _ => bareValue? ts

/-- The rest of an array, from an item or its end on. -/
def items? : Nat → Nat → List Value → List Token → Option (Value × List Token)
  | 0, _, _, _ => none
  | fuel + 1, depth, done, ts =>
    match skipLines ts with
    | .closeBracket :: rest => some (.array done, rest)
    | ts =>
      match value? fuel depth ts with
      | none => none
      | some (v, rest) =>
        match skipLines rest with
        | .comma :: rest => items? fuel depth (done ++ [v]) rest
        | .closeBracket :: rest => some (.array (done ++ [v]), rest)
        | _ => none

/-- The rest of a table between braces, from a key or its end on. -/
def fields? : Nat → Nat → Entries → List Token → Option (Value × List Token)
  | 0, _, _, _ => none
  | fuel + 1, depth, done, ts =>
    match skipLines ts with
    | .closeBrace :: rest => some (.table .closed done, rest)
    | ts =>
      match key? ts with
      | some (key, .equals :: rest) =>
        match value? fuel depth (skipGap rest) with
        | none => none
        | some (v, rest) =>
          match assign v key done, skipLines rest with
          | some done, .comma :: rest => fields? fuel depth done rest
          | some done, .closeBrace :: rest => some (.table .closed done, rest)
          | _, _ => none
      | _ => none

end

/-- What has been read, and the keys of the table that is open. -/
structure Draft where
  root : Entries := []
  opened : List String := []

namespace Draft

/-- Opens the table or the table of an array that the last of the keys names. -/
def open? (d : Draft) (openLast : String → Entries → Option Entries) (keys : List String) : Option Draft :=
  match keys.getLast? with
  | none => none
  | some key => (within (openLast key) keys.dropLast d.root).map fun root => { root, opened := keys }

def assign? (d : Draft) (keys : List String) (v : Value) : Option Draft :=
  (within (assign v keys) d.opened d.root).map fun root => { d with root }

/-- The statement that stands here. -/
def statement? (d : Draft) (ts : List Token) : Option (Draft × List Token) :=
  match ts with
  | .openBracket :: .openBracket :: rest =>
    match key? rest with
    | some (keys, .closeBracket :: .closeBracket :: rest) => (d.open? openElement keys).map (·, rest)
    | _ => none
  | .openBracket :: rest =>
    match key? rest with
    | some (keys, .closeBracket :: rest) => (d.open? openTable keys).map (·, rest)
    | _ => none
  | ts =>
    match key? ts with
    | some (keys, .equals :: rest) =>
      match value? (rest.length + 1) nestingLimit (skipGap rest) with
      | some (v, rest) => (d.assign? keys v).map (·, rest)
      | none => none
    | _ => none

/-- Statements to the end, each closed by a line break or the end. -/
def statements? : Nat → Draft → List Token → Option Entries
  | 0, _, _ => none
  | fuel + 1, d, ts =>
    match skipGap ts with
    | [] => some d.root
    | .newline :: rest => statements? fuel d rest
    | ts =>
      match d.statement? ts with
      | none => none
      | some (d, rest) =>
        match skipGap rest with
        | [] => some d.root
        | .newline :: rest => statements? fuel d rest
        | _ => none

end Draft

/-- A mark of the byte order in front does not count. -/
def withoutMark : List Char → List Char
  | '\ufeff' :: rest => rest
  | cs => cs

def parse? (text : String) : Option Entries :=
  (tokens? (withoutMark text.toList)).bind fun ts => Draft.statements? (ts.length + 1) {} ts

end Toml
end NoteStencil
