import NoteStencil.Context
import NoteStencil.Text.Blank

/-! Expansion of placeholders. A token is two opening braces, a name without closing brace, and two closing
braces. Tokens are taken from left to right, each search going on behind the last token, and what is put in
for one is never searched. -/

namespace NoteStencil

/-- A source of answers with a state of its own. -/
structure Prompter (σ : Type) where
  ask : String → σ → Option String × σ

/-- Never answers. -/
def Prompter.silent (σ : Type) : Prompter σ := ⟨fun _ s => (none, s)⟩

/-- The name of a token that starts here. -/
def tokenName? : List Char → Option (List Char)
  | '{' :: '{' :: rest =>
    match rest.takeWhile (· ≠ '}'), rest.dropWhile (· ≠ '}') with
    | c :: name, '}' :: '}' :: _ => some (c :: name)
    | _, _ => none
  | _ => none

inductive Piece
  | text (c : Char)
  | token (name : String)
  deriving DecidableEq, Repr

/-- A text as tokens and the characters between them. -/
def scan : List Char → List Piece
  | [] => []
  | c :: rest =>
    match tokenName? (c :: rest) with
    | some name => .token (String.ofList name) :: scan (rest.drop (name.length + 3))
    | none => .text c :: scan rest
termination_by cs => cs.length

def tokenText (name : String) : String := "\x7b\x7b" ++ name ++ "\x7d\x7d"

def question (name : String) : String := "Enter value for '" ++ name ++ "' (<cr> to skip):"

/-- Asks for a name; no answer and an empty one both skip it for good. -/
def askFor (p : Prompter σ) (name : String) (c : Context) (s : σ) : Option String × Context × σ :=
  match p.ask (question name) s with
  | (some answer, s') =>
    if answer = "" then (none, c.skip name, s') else (some answer, c.remember name answer, s')
  | (none, s') => (none, c.skip name, s')

/-- A binding needs the name exactly as written; answers and questions go by the trimmed name. -/
def valueFor (p : Prompter σ) (raw : String) (c : Context) (s : σ) : Option String × Context × σ :=
  match c.resolve raw with
  | (some value, c') => (some value, c', s)
  | (none, _) =>
    let name := trim raw
    if name = "" ∨ c.isSkipped name then (none, c, s)
    else match c.answer name with
      | some value => (some value, c, s)
      | none => askFor p name c s

def expandPieces (p : Prompter σ) : List Piece → Context → σ → List Char × Context × σ
  | [], c, s => ([], c, s)
  | .text ch :: rest, c, s =>
    match expandPieces p rest c s with
    | (out, c', s') => (ch :: out, c', s')
  | .token raw :: rest, c, s =>
    match valueFor p raw c s with
    | (value, c', s') =>
      match expandPieces p rest c' s' with
      | (out, c'', s'') => ((value.getD (tokenText raw)).toList ++ out, c'', s'')

def expand (p : Prompter σ) (text : String) (c : Context) (s : σ) : String × Context × σ :=
  match expandPieces p (scan text.toList) c s with
  | (out, c', s') => (String.ofList out, c', s')

def expandLines (p : Prompter σ) : List String → Context → σ → List String × Context × σ
  | [], c, s => ([], c, s)
  | line :: rest, c, s =>
    match expand p line c s with
    | (out, c', s') =>
      match expandLines p rest c' s' with
      | (outs, c'', s'') => (out :: outs, c'', s'')

end NoteStencil
