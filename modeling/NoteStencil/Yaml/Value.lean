import NoteStencil.Binary64
import NoteStencil.Table

/-! Values of a YAML document. Mappings keep the order of their entries, but two of them are the same whatever the
order. -/

namespace NoteStencil
namespace Yaml

inductive Number
  | int (n : Int)
  | float (x : Binary64)
  deriving DecidableEq, Repr

/-- A tag that is read is kept without its leading `!`, unless that is all of it. -/
inductive Value
  | null
  | bool (b : Bool)
  | number (n : Number)
  | string (text : String)
  | sequence (items : List Value)
  | mapping (entries : List (Value × Value))
  | tagged (tag : String) (value : Value)
  deriving Repr, Inhabited

abbrev Mapping := List (Value × Value)

def Number.same : Number → Number → Bool
  | int m, int n => m == n
  | float x, float y => x.same y
  | _, _ => false

namespace Value

/-- A tag as it is compared and shown: without a leading `!`, unless that is all of it. One that is kept can still have
one, as `!<!!x>` is kept with the second of its two. -/
def tagName (tag : String) : String :=
  match tag.toList with
  | '!' :: c :: rest => String.ofList (c :: rest)
  | _ => tag

mutual
/-- Sameness of keys and values. -/
def same : Value → Value → Bool
  | null, null => true
  | bool a, bool b => a == b
  | number m, number n => m.same n
  | string s, string t => s == t
  | sequence xs, sequence ys => sameItems xs ys
  | mapping xs, mapping ys => xs.length == ys.length && sameEntries xs ys
  | tagged s x, tagged t y => tagName s == tagName t && same x y
  | _, _ => false

def sameItems : List Value → List Value → Bool
  | [], [] => true
  | x :: xs, y :: ys => same x y && sameItems xs ys
  | _, _ => false

def sameEntry : Value × Value → Value × Value → Bool
  | (k, v), e => same k e.1 && same v e.2

/-- Every entry of the first list is one of the second. -/
def sameEntries : List (Value × Value) → List (Value × Value) → Bool
  | [], _ => true
  | e :: rest, ys => ys.any (sameEntry e) && sameEntries rest ys
end

instance : BEq Value := ⟨same⟩

/-- The text of a string, read through any tags. -/
def text? : Value → Option String
  | string s => some s
  | tagged _ v => text? v
  | _ => none

end Value
end Yaml
end NoteStencil
