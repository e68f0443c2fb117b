import NoteStencil.Note.Read

/-! Equality of values, entries in order, where sameness of keys takes mappings in any order. It can be decided, and so
can equality of notes: what a document reads as can be computed and compared. -/

namespace NoteStencil
namespace Yaml
namespace Value

mutual
/-- The same value, entries in order. -/
def identical : Value → Value → Bool
  | null, null => true
  | bool a, bool b => a == b
  | number m, number n => decide (m = n)
  | string s, string t => s == t
  | sequence xs, sequence ys => identicalItems xs ys
  | mapping xs, mapping ys => identicalEntries xs ys
  | tagged s v, tagged t w => s == t && identical v w
  | _, _ => false

def identicalItems : List Value → List Value → Bool
  | [], [] => true
  | x :: xs, y :: ys => identical x y && identicalItems xs ys
  | _, _ => false

def identicalEntry : Value × Value → Value × Value → Bool
  | (k, v), e => identical k e.1 && identical v e.2

def identicalEntries : List (Value × Value) → List (Value × Value) → Bool
  | [], [] => true
  | x :: xs, y :: ys => identicalEntry x y && identicalEntries xs ys
  | _, _ => false
end

mutual
theorem identical_iff : ∀ a b : Value, identical a b = true ↔ a = b
  | null, b => by cases b <;> simp [identical]
  | bool a, b => by cases b <;> simp [identical]
  | number m, b => by cases b <;> simp [identical]
  | string s, b => by cases b <;> simp [identical]
  | sequence xs, b => by
    cases b with
    | sequence ys => simp [identical, identicalItems_iff xs ys]
    | _ => simp [identical]
  | mapping xs, b => by
    cases b with
    | mapping ys => simp [identical, identicalEntries_iff xs ys]
    | _ => simp [identical]
  | tagged s v, b => by
    cases b with
    | tagged t w => simp [identical, identical_iff v w]
    | _ => simp [identical]

theorem identicalItems_iff : ∀ xs ys : List Value, identicalItems xs ys = true ↔ xs = ys
  | [], ys => by cases ys <;> simp [identicalItems]
  | x :: xs, ys => by
    cases ys with
    | nil => simp [identicalItems]
    | cons y ys => simp [identicalItems, identical_iff x y, identicalItems_iff xs ys]

theorem identicalEntry_iff : ∀ a b : Value × Value, identicalEntry a b = true ↔ a = b
  | (k, v), (k', v') => by simp [identicalEntry, identical_iff k k', identical_iff v v']

theorem identicalEntries_iff : ∀ xs ys : List (Value × Value), identicalEntries xs ys = true ↔ xs = ys
  | [], ys => by cases ys <;> simp [identicalEntries]
  | x :: xs, ys => by
    cases ys with
    | nil => simp [identicalEntries]
    | cons y ys => simp [identicalEntries, identicalEntry_iff x y, identicalEntries_iff xs ys]
end

instance : DecidableEq Value := fun a b => decidable_of_iff _ (identical_iff a b)

end Value
end Yaml

deriving instance DecidableEq for Note

end NoteStencil
