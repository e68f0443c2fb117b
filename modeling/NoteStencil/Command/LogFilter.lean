import NoteStencil.Command.Arguments
import NoteStencil.Text.Alphanumeric
import NoteStencil.Text.Blank
import NoteStencil.Text.Lines

/-! Which log messages are shown. A filter is a list of directives, parted by commas: a level alone, or a target
perhaps with a span in brackets and a field in braces, and a level for it. More specific directives come first,
and of two for the same messages the later one counts. -/

namespace NoteStencil

inductive LogLevel
  | off
  | error
  | warn
  | info
  | debug
  | trace
  deriving DecidableEq, Repr

namespace LogLevel

def all : List LogLevel := [off, error, warn, info, debug, trace]

def word : LogLevel → String
  | off => "off"
  | error => "error"
  | warn => "warn"
  | info => "info"
  | debug => "debug"
  | trace => "trace"

/-- A level by its word in any case, or by its number. -/
def ofWord? (chars : List Char) : Option LogLevel :=
  let digits := match chars with
    | '+' :: rest => rest
    | cs => cs
  ((natural? 10 digits).bind (all[·]?)).or
    (all.find? fun level => level.word.toList == chars.map Char.toLower)

/-- What no level is written for is shown whole. -/
def ofText? (chars : List Char) : Option LogLevel :=
  if chars = [] then some trace else ofWord? chars

end LogLevel

structure Directive where
  target : Option String := none
  span : Option String := none
  field : Option String := none
  level : LogLevel := .trace
  deriving DecidableEq, Repr

namespace Directive

/-- Whether it depends on spans that are open when a message is given. -/
def isDynamic (d : Directive) : Bool := d.span.isSome || d.field.isSome

/-- Whether it can be judged by a message alone: it names no span, and no value of a field. -/
def isStatic (d : Directive) : Bool :=
  d.span.isNone && d.field.all fun f => !f.toList.contains '='

def optionLt (a b : Option String) : Bool :=
  match a, b with
  | none, some _ => true
  | some s, some t => decide (s < t)
  | _, none => false

/-- Compared by each pair in turn until one differs. -/
def firstDifference : List (Nat × Nat) → Option Bool
  | [] => none
  | (m, n) :: rest => if m = n then firstDifference rest else some (decide (n < m))

def size (text : Option String) : Nat := text.elim 0 (·.utf8ByteSize + 1)

/-- More specific: a longer target, a span, a field; among equals the later text. -/
def before (a b : Directive) : Bool :=
  match firstDifference [(size a.target, size b.target), (a.span.toList.length, b.span.toList.length),
    (a.field.toList.length, b.field.toList.length)] with
  | some answer => answer
  | none =>
    if a.target ≠ b.target then optionLt b.target a.target
    else if a.span ≠ b.span then optionLt b.span a.span
    else optionLt b.field a.field

def concerns (a b : Directive) : Bool := a.target == b.target && a.span == b.span && a.field == b.field

/-- Puts a directive in its place, or in the place of one for the same messages. -/
def insert (d : Directive) : List Directive → List Directive
  | [] => [d]
  | e :: rest =>
    if d.concerns e then d :: rest else if d.before e then d :: e :: rest else e :: insert d rest

def text (d : Directive) : String :=
  let field := d.field.elim "" fun f => "\x7b" ++ f ++ "\x7d"
  let inside := if d.isDynamic then "[" ++ d.span.getD "" ++ field ++ "]" else ""
  let subject := d.target.getD "" ++ inside
  if d.target.isSome ∨ d.isDynamic then subject ++ "=" ++ d.level.word else d.level.word

/-! ### Reading -/

def isTargetStart (c : Char) : Bool := isAlphanumeric c || c == '-' || c == ':' || c == '_'

/-- The level behind a target or a closing bracket. -/
def levelAfter? : List Char → Option LogLevel
  | [] => some .trace
  | '=' :: rest => LogLevel.ofText? rest
  | _ => none

/-- What stands in brackets, and the level behind them. -/
def bracketed? (target : Option String) (chars : List Char) : Option Directive :=
  let span := chars.takeWhile fun c => c != ']' && c != '{'
  match chars.drop span.length with
  | ']' :: rest =>
    (levelAfter? rest).map fun level => { target, span := some (String.ofList span), level }
  | '{' :: rest =>
    let field := rest.takeWhile (· ≠ '}')
    match field, rest.drop field.length with
    | _ :: _, '}' :: ']' :: rest =>
      (levelAfter? rest).map fun level =>
        { target, field := some (String.ofList field), level
          span := if span = [] then none else some (String.ofList span) }
    | _, _ => none
  | _ => none

/-- A word alone is a level, or else a target. -/
def bare (chars : List Char) : Directive :=
  match LogLevel.ofWord? chars with
  | some level => { level }
  | none => { target := some (String.ofList chars) }

/-- Blanks around a directive do not count for where its parts begin, but belong to them. -/
def ofChars? (chars : List Char) : Option Directive :=
  match trimChars chars with
  | '[' :: _ => bracketed? none (chars.drop 1)
  | c :: rest =>
    let n := ((c :: rest).takeWhile fun c => c != '=' && c != '[').length
    let target := String.ofList (chars.take n)
    if !isTargetStart c then none
    else match (c :: rest).drop n with
      | '=' :: _ => (LogLevel.ofText? (chars.drop (n + 1))).map fun level => { target := some target, level }
      | '[' :: _ => bracketed? (some target) (chars.drop (n + 1))
      | _ => some (bare chars)
  | [] => none

end Directive

namespace LogFilter

/-- Pieces between commas; empty ones do not count. -/
def pieces (chars : List Char) : List (List Char) := ((cutAt ',' chars).map (·.1)).filter (· ≠ [])

def inOrder (directives : List Directive) : List Directive :=
  directives.foldl (fun ds d => d.insert ds) []

/-- Directives that messages alone decide come first; a filter without any shows errors. -/
def shown (directives : List Directive) : String :=
  let dynamic := directives.filter (·.isDynamic)
  let static := (directives.filter (!·.isDynamic)) ++ dynamic.filter (·.isStatic)
  let all := inOrder static ++ inOrder dynamic
  ",".intercalate ((if all = [] then [{ level := .error }] else all).map Directive.text)

/-- A filter as it is understood. -/
def read? (text : String) : Option String :=
  ((pieces text.toList).mapM Directive.ofChars?).map shown

/-- The filter of the program's own messages, for someone who wants to see all of them. -/
def verboseFilter : String := "frontplate=debug"

def quietFilter : String := "warn"

/-- The variable that holds a filter. -/
def variableName : String := "RUST_LOG"

/-- The filter of a run, none when nothing is to be shown; one that cannot be understood gives way. -/
def ofInvocation (i : Invocation) (e : Environment) : Option String :=
  if i.quiet then none
  else if i.verbose then some verboseFilter
  else some (((e.find? variableName).bind read?).getD quietFilter)

end LogFilter
end NoteStencil
