import NoteStencil.Clock.Pattern
import NoteStencil.Table
import NoteStencil.Text.Escaped

/-! What placeholder names stand for while one document is expanded. A value may be computed; its producer runs
when the name is first looked up, and from then on the result is the value. Answers of a prompt and declined
names are kept apart from the values and never hide one. -/

namespace NoteStencil

/-- A way to make a value when it is asked for. A clock stands still: `now` is one instant for a whole engine, in universal
time, where the clock of a host would be read anew for each value that is first asked for, and in the host's time zone. -/
inductive Producer
  | fixed (text : String)
  | clock (now : Instant) (pattern fallback : String)
  deriving DecidableEq, Repr

namespace Producer

/-- A pattern that cannot be used gives way to the fallback. -/
def run : Producer → String
  | fixed text => text
  | clock now pattern fallback =>
    ((Pattern.format? pattern now).or (Pattern.format? fallback now)).getD ""

/-- What a user is told when the producer runs. -/
def warning : Producer → Option String
  | fixed _ => none
  | clock now pattern fallback =>
    if (Pattern.format? pattern now).isSome then none
    else some ("Invalid date/time format '" ++ pattern ++ "', using '" ++ fallback ++ "'")

end Producer

inductive Substitution
  | literal (text : String)
  | computed (producer : Producer)
  deriving DecidableEq, Repr

/-- A substitution as it is shown to someone who looks for a mistake; what a producer would give stays open. -/
def Substitution.shown : Substitution → String
  | literal text => "Literal(" ++ escapeText text ++ ")"
  | computed _ => "Computed(..)"

/-- `runs` lists the producers that have run, with their names, oldest first. -/
structure Context where
  values : Table String Substitution := []
  answers : Table String String := []
  skipped : List String := []
  runs : List (String × Producer) := []
  deriving DecidableEq, Repr

namespace Context

def bind (c : Context) (name : String) (s : Substitution) : Context :=
  { c with values := c.values.put name s }

/-- A name that is bound already keeps its value. -/
def bindNew (c : Context) (name : String) (s : Substitution) : Context :=
  { c with values := c.values.putNew name s }

def has (c : Context) (name : String) : Bool := c.values.has name

def resolve (c : Context) (name : String) : Option String × Context :=
  match c.values.find? name with
  | none => (none, c)
  | some (.literal text) => (some text, c)
  | some (.computed producer) =>
    (some producer.run,
      { c with values := c.values.put name (.literal producer.run), runs := c.runs ++ [(name, producer)] })

def remember (c : Context) (name answer : String) : Context :=
  { c with answers := c.answers.put name answer }

def answer (c : Context) (name : String) : Option String := c.answers.find? name

def skip (c : Context) (name : String) : Context :=
  { c with skipped := if name ∈ c.skipped then c.skipped else c.skipped ++ [name] }

def isSkipped (c : Context) (name : String) : Bool := name ∈ c.skipped

/-- Warnings of the producers that ran after the first `n`. -/
def warningsSince (c : Context) (n : Nat) : List String :=
  (c.runs.drop n).filterMap fun r => r.2.warning

end Context
end NoteStencil
