import NoteStencil.Binary64
import NoteStencil.Table

/-! Values of a TOML document, and how its statements put them into tables. What has been written out as a table once
cannot be written out again, nor can a table between braces be added to. -/

namespace NoteStencil
namespace Toml

/-- How a table came about: by a header of its own, by the header of a table in it, by a key with dots, or
between braces. -/
inductive TableKind
  | headed
  | implied
  | dotted
  | closed
  deriving DecidableEq, Repr

inductive Value
  | text (s : String)
  | bool (b : Bool)
  | int (n : Int)
  | float (x : Binary64)
  /-- A date, a time of day or both, in its plainest spelling. -/
  | moment (spelling : String)
  | array (items : List Value)
  | table (kind : TableKind) (entries : List (String × Value))
  /-- An array of tables, each with a header of its own; never empty. -/
  | tables (items : List (List (String × Value)))
  deriving Repr

abbrev Entries := Table String Value

/-- Puts a value under a key with dots. The tables on the way are made where they are missing, and else must be
tables that no header made; the last must have been made by keys with dots alone. -/
def assign (value : Value) : List String → Entries → Option Entries
  | [], _ => none
  | [key], t => if t.has key then none else some (t.put key value)
  | step :: key :: path, t =>
    match t.find? step with
    | none => (assign value (key :: path) []).map fun inner => t.put step (.table .dotted inner)
    | some (.table kind inner) =>
      if kind = .dotted ∨ (kind = .implied ∧ path ≠ []) then
        (assign value (key :: path) inner).map fun inner => t.put step (.table kind inner)
      else none
    | some (.tables items) =>
      if path = [] then none
      else (assign value (key :: path) (items.getLastD [])).map fun last =>
        t.put step (.tables (items.dropLast ++ [last]))
    | some _ => none

/-- Changes the table that a header's keys lead to, the last one of an array of tables. -/
def within (change : Entries → Option Entries) : List String → Entries → Option Entries
  | [], t => change t
  | step :: path, t =>
    match t.find? step with
    | none => (within change path []).map fun inner => t.put step (.table .implied inner)
    | some (.table kind inner) =>
      if kind = .closed then none
      else (within change path inner).map fun inner => t.put step (.table kind inner)
    | some (.tables items) =>
      (within change path (items.getLastD [])).map fun last =>
        t.put step (.tables (items.dropLast ++ [last]))
    | some _ => none

/-- Opens a table under a key: a new one, or one that only headers of tables in it have named. -/
def openTable (key : String) (t : Entries) : Option Entries :=
  match t.find? key with
  | none => some (t.put key (.table .headed []))
  | some (.table .implied inner) => some (t.put key (.table .headed inner))
  | some _ => none

/-- Opens one more table of an array of tables. -/
def openElement (key : String) (t : Entries) : Option Entries :=
  match t.find? key with
  | none => some (t.put key (.tables [[]]))
  | some (.tables items) => some (t.put key (.tables (items ++ [[]])))
  | some _ => none

end Toml
end NoteStencil
