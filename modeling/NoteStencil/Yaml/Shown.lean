import NoteStencil.Text.Escaped
import NoteStencil.Yaml.NumberText

/-! A value as it is shown to someone who looks for a mistake in it: with the name of its kind, and text
escaped. Simple keys stand bare. -/

namespace NoteStencil
namespace Yaml
namespace Value

def bracketed (opening closing : String) (parts : List String) : String :=
  opening ++ ", ".intercalate parts ++ closing

mutual
def shown : Value → String
  | null => "Null"
  | bool b => "Bool(" ++ toString b ++ ")"
  | number n => "Number(" ++ n.text ++ ")"
  | string s => "String(" ++ escapeText s ++ ")"
  | sequence xs => "Sequence " ++ bracketed "[" "]" (shownItems xs)
  | mapping es => "Mapping " ++ bracketed "\x7b" "\x7d" (shownEntries es)
  | tagged tag v =>
    "TaggedValue " ++ bracketed "\x7b " " \x7d" ["tag: !" ++ tagName tag, "value: " ++ shown v]

def shownItems : List Value → List String
  | [] => []
  | x :: xs => shown x :: shownItems xs

def shownEntry : Value × Value → String
  | (k, v) => shownKey k ++ ": " ++ shown v

def shownKey : Value → String
  | bool b => toString b
  | number n => n.text
  | string s => escapeText s
  | null => "Null"
  | sequence xs => "Sequence " ++ bracketed "[" "]" (shownItems xs)
  | mapping es => "Mapping " ++ bracketed "\x7b" "\x7d" (shownEntries es)
  | tagged tag v =>
    "TaggedValue " ++ bracketed "\x7b " " \x7d" ["tag: !" ++ tagName tag, "value: " ++ shown v]

def shownEntries : List (Value × Value) → List String
  | [] => []
  | e :: es => shownEntry e :: shownEntries es
end

end Value
end Yaml
end NoteStencil
