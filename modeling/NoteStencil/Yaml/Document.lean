import NoteStencil.Yaml.Scalar
import NoteStencil.Yaml.Tree

/-! The value of a document. Aliases stand for the node of their anchor; following them is bounded, in depth and
in number, so that a short text cannot spell an endless value. -/

namespace NoteStencil
namespace Yaml

/-! ### Anchors as numbers -/

/-- Anchors met so far. Each takes the count of names before it as its number, so a name that is used again
shares its number with the next new name, and the later of the two nodes is meant. -/
structure Naming where
  numbers : Table String Nat := []
  nodes : Table Nat Nat := []
  next : Nat := 0

/-- The serial number of the node, when it has an anchor. -/
def Naming.visit (n : Naming) : Option String → Option Nat × Naming
  | none => (none, n)
  | some name =>
    let number := n.numbers.length
    (some n.next,
      { numbers := n.numbers.put name number, nodes := n.nodes.put number n.next, next := n.next + 1 })

namespace Tree

mutual
/-- Anchors become serial numbers of nodes, aliases numbers of anchors. -/
def numbered : Tree String → Naming → Reading (Tree Nat × Naming)
  | again name, n =>
    match n.numbers.find? name with
    | some number => .ok (again number, n)
    | none => .error "an alias has no anchor"
  | scalar text plain tag anchor, n =>
    let (serial, n) := n.visit anchor
    .ok (scalar text plain tag serial, n)
  | sequence items tag anchor, n =>
    let (serial, n) := n.visit anchor
    (numberedItems items n).map fun (xs, n) => (sequence xs tag serial, n)
  | mapping entries tag anchor, n =>
    let (serial, n) := n.visit anchor
    (numberedEntries entries n).map fun (es, n) => (mapping es tag serial, n)

def numberedItems : List (Tree String) → Naming → Reading (List (Tree Nat) × Naming)
  | [], n => .ok ([], n)
  | x :: xs, n =>
    match numbered x n with
    | .error e => .error e
    | .ok (y, n) => (numberedItems xs n).map fun (ys, n) => (y :: ys, n)

def numberedEntry : Tree String × Tree String → Naming → Reading ((Tree Nat × Tree Nat) × Naming)
  | (k, v), n =>
    match numbered k n with
    | .error e => .error e
    | .ok (k', n) => (numbered v n).map fun (v', n) => ((k', v'), n)

def numberedEntries :
    List (Tree String × Tree String) → Naming → Reading (List (Tree Nat × Tree Nat) × Naming)
  | [], n => .ok ([], n)
  | e :: es, n =>
    match numberedEntry e n with
    | .error e => .error e
    | .ok (e', n) => (numberedEntries es n).map fun (es', n) => (e' :: es', n)
end

mutual
/-- Nodes with an anchor, by serial number. -/
def anchored : Tree Nat → Table Nat (Tree Nat)
  | again _ => []
  | scalar text plain tag anchor => anchor.toList.map (·, scalar text plain tag none)
  | sequence items tag anchor =>
    anchor.toList.map (·, sequence items tag none) ++ anchoredItems items
  | mapping entries tag anchor =>
    anchor.toList.map (·, mapping entries tag none) ++ anchoredEntries entries

def anchoredItems : List (Tree Nat) → Table Nat (Tree Nat)
  | [] => []
  | x :: xs => anchored x ++ anchoredItems xs

def anchoredEntry : Tree Nat × Tree Nat → Table Nat (Tree Nat)
  | (k, v) => anchored k ++ anchored v

def anchoredEntries : List (Tree Nat × Tree Nat) → Table Nat (Tree Nat)
  | [] => []
  | e :: es => anchoredEntry e ++ anchoredEntries es
end

mutual
/-- One for a scalar or an alias, two for the ends of a collection. -/
def size : Tree Nat → Nat
  | again _ => 1
  | scalar _ _ _ _ => 1
  | sequence items _ _ => 2 + sizeItems items
  | mapping entries _ _ => 2 + sizeEntries entries

def sizeItems : List (Tree Nat) → Nat
  | [] => 0
  | x :: xs => size x + sizeItems xs

def sizeEntry : Tree Nat × Tree Nat → Nat
  | (k, v) => size k + size v

def sizeEntries : List (Tree Nat × Tree Nat) → Nat
  | [] => 0
  | e :: es => sizeEntry e + sizeEntries es
end

end Tree

/-! ### Values -/

/-- Tags of the document's own, which the value keeps, without their leading `!`. -/
def ownTag? (tag : Option String) : Option String :=
  match tag.map String.toList with
  | some ['!'] => some "!"
  | some ('!' :: name) => some (String.ofList name)
  | _ => none

def withTag (tag : Option String) (v : Value) : Value :=
  match ownTag? tag with
  | some name => .tagged name v
  | none => v

def coreTag (name : String) : Option String := some ("tag:yaml.org,2002:" ++ name)

def orRefuse (reason : String) : Option α → Reading α
  | some a => .ok a
  | none => .error reason

def plainValue (text : String) : Reading Value :=
  orRefuse "a whole number is too long" (plainValue? text)

/-- A core tag asks for a kind and the text has to fit it. -/
def scalarValue (text : String) (plain : Bool) (tag : Option String) : Reading Value :=
  if (ownTag? tag).isSome then
    (if plain then plainValue text else .ok (.string text)).map (withTag tag)
  else if tag = coreTag "bool" then (orRefuse "a truth value is expected" (bool? text)).map .bool
  else if tag = coreTag "int" then
    match wholeNumber? text.toList with
    | some (some n) => .ok (.number (.int n))
    | _ => .error "a whole number is expected"
  else if tag = coreTag "float" then
    (orRefuse "a number is expected" (float? text.toList)).map fun x => .number (.float x)
  else if tag = coreTag "null" then
    if isNullWord text then .ok .null else .error "null is expected"
  else if tag = none ∧ plain then plainValue text
  else .ok (.string text)

/-- Entries in order, unless a key comes twice. -/
def mappingOf : List (Value × Value) → Mapping → Reading Mapping
  | [], done => .ok done
  | (k, v) :: rest, done =>
    if Table.has done k then .error "a key comes twice" else mappingOf rest (done ++ [(k, v)])

/-- How deep collections may be nested. -/
def nestingLimit : Nat := 128

/-- What reading a document needs: the node of each anchor number, and how many aliases may be followed. -/
structure Targets where
  node : Nat → Option (Tree Nat)
  limit : Nat

abbrev Counting := StateT Nat Reading

/-- The node itself, or the one that an alias stands for, which is counted. -/
def Targets.follow (t : Targets) : Tree Nat → Counting (Tree Nat)
  | .again number => fun used =>
    if t.limit < used + 1 then .error "too many aliases"
    else match t.node number with
      | some node => .ok (node, used + 1)
      | none => .error "an alias has no anchor"
  | node => pure node

def readValue (t : Targets) : Nat → Tree Nat → Counting Value
  | 0, node => do
    match ← t.follow node with
    | .scalar text plain tag _ => liftM (scalarValue text plain tag)
    | _ => throw "collections are nested too deep"
  | depth + 1, node => do
    match ← t.follow node with
    | .scalar text plain tag _ => liftM (scalarValue text plain tag)
    | .sequence items tag _ => do
      let values ← items.mapM (readValue t depth)
      return withTag tag (.sequence values)
    | .mapping entries tag _ => do
      let pairs ← entries.mapM fun e => do
        let k ← readValue t depth e.1
        let v ← readValue t depth e.2
        return (k, v)
      let entries ← liftM (mappingOf pairs [])
      return withTag tag (.mapping entries)
    | .again _ => throw "an alias has no anchor"

/-- The value of a text that holds one document, null when it holds none. -/
def parse (text : String) : Reading Value := do
  let tokens ← tokens? text.toList
  match ← Tree.ofTokens tokens with
  | none => return .null
  | some root =>
    let (tree, naming) ← root.numbered {}
    let nodes := tree.anchored
    let targets : Targets :=
      { node := fun number => (naming.nodes.find? number).bind nodes.find?
        limit := 100 * tree.size }
    (readValue targets nestingLimit tree).run' 0

end Yaml
end NoteStencil
