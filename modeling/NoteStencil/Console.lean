import NoteStencil.Expansion
import NoteStencil.Failure

/-! The terminal that a program talks to: what is still to be typed on it, if it is one at all, and what has been
printed. -/

namespace NoteStencil

structure Console where
  /-- What is typed and not yet read; none when standard input is not a terminal. -/
  typed : Option (List Char) := none
  color : Bool := false
  out : String := ""
  err : String := ""
  /-- What had been printed when a question first found nothing typed. -/
  starved : Option String := none
  deriving DecidableEq, Repr

namespace Console

def print (c : Console) (text : String) : Console := { c with out := c.out ++ text }

def printError (c : Console) (text : String) : Console := { c with err := c.err ++ text }

/-- The next typed line with its line feed, and what is typed after it. -/
def takeLine : List Char → List Char × List Char
  | [] => ([], [])
  | c :: rest =>
    if c = '\n' then (['\n'], rest) else
      match takeLine rest with
      | (line, rest) => (c :: line, rest)

def isLineEnd (c : Char) : Bool := c == '\r' || c == '\n'

/-- Prints the question and reads a line. At the end of the input there is no answer, and without a terminal
nothing is printed. -/
def ask (question : String) (c : Console) : Option String × Console :=
  match c.typed with
  | none => (none, c)
  | some typed =>
    let asked := c.printError (Style.green.paint c.color question ++ " ")
    match takeLine typed with
    | ([], _) => (none, { asked with starved := asked.starved.or (some asked.err) })
    | (line, rest) =>
      (some (String.ofList (dropEndWhile isLineEnd line)), { asked with typed := some rest })

def prompter : Prompter Console := ⟨ask⟩

end Console
end NoteStencil
