import NoteStencil.Yaml.Token

/-! The nodes of a document as its tokens group them, with the anchors and aliases still names. An absent node
reads as an empty plain scalar. -/

namespace NoteStencil
namespace Yaml

/-- Anchors and aliases are of a type of their own: names first, numbers later. -/
inductive Tree (α : Type)
  | scalar (text : String) (plain : Bool) (tag : Option String) (anchor : Option α)
  | sequence (items : List (Tree α)) (tag : Option String) (anchor : Option α)
  | mapping (entries : List (Tree α × Tree α)) (tag : Option String) (anchor : Option α)
  | again (target : α)
  deriving Repr, Inhabited

namespace Tree

def empty : Tree String := scalar "" true none none

/-- Handles that documents declare, and what they stand for. -/
abbrev Handles := List (String × String)

def standardHandles : Handles := [("!", "!"), ("!!", "tag:yaml.org,2002:")]

/-- A tag and an anchor before a node, in either order. -/
structure Dress where
  tag : Option String := none
  anchor : Option String := none

def spellTag (handles : Handles) (handle suffix : String) : Reading String :=
  if handle = "" then .ok suffix
  else match handles.lookup handle with
    | some lead => .ok (lead ++ suffix)
    | none => .error "a tag handle is not declared"

def readDress (handles : Handles) : List Token → Reading (Dress × List Token)
  | .anchor a :: .tag h s :: rest =>
    (spellTag handles h s).map fun t => ({ tag := some t, anchor := some a }, rest)
  | .tag h s :: .anchor a :: rest =>
    (spellTag handles h s).map fun t => ({ tag := some t, anchor := some a }, rest)
  | .anchor a :: rest => .ok ({ anchor := some a }, rest)
  | .tag h s :: rest => (spellTag handles h s).map fun t => ({ tag := some t }, rest)
  | rest => .ok ({}, rest)

/-- Where a node can be missing: before one of these tokens. -/
def missingBefore (stops : List Token) : List Token → Bool
  | t :: _ => stops.contains t
  | [] => true

mutual

/-- A node. Block collections need `block`; a sequence that is not indented needs `loose`, as behind a key. -/
def readNode (handles : Handles) : Nat → Bool → Bool → List Token → Reading (Tree String × List Token)
  | 0, _, _, _ => .error "the document does not end"
  | fuel + 1, block, loose, tokens =>
    match tokens with
    | .again name :: rest => .ok (again name, rest)
    | _ =>
      match readDress handles tokens with
      | .error e => .error e
      | .ok (d, rest) =>
        match rest with
        | .scalar text plain :: rest =>
          .ok (scalar text plain (d.tag.filter (· ≠ "!")) d.anchor, rest)
        | .flowSequenceStart :: rest =>
          (readFlowItems handles fuel true rest).map fun (xs, r) => (sequence xs d.tag d.anchor, r)
        | .flowMappingStart :: rest =>
          (readFlowEntries handles fuel true rest).map fun (es, r) => (mapping es d.tag d.anchor, r)
        | first :: after =>
          if loose ∧ first = .blockEntry then
            (readLooseItems handles fuel rest).map fun (xs, r) => (sequence xs d.tag d.anchor, r)
          else if block ∧ first = .blockSequenceStart then
            (readBlockItems handles fuel after).map fun (xs, r) => (sequence xs d.tag d.anchor, r)
          else if block ∧ first = .blockMappingStart then
            (readBlockEntries handles fuel after).map fun (es, r) => (mapping es d.tag d.anchor, r)
          else if d.tag.isSome ∨ d.anchor.isSome then .ok (scalar "" true d.tag d.anchor, rest)
          else .error "a node is missing"
        | [] => .error "a node is missing"

/-- A node that may be missing before any of `stops`. -/
def readOptional (handles : Handles) :
    Nat → Bool → Bool → List Token → List Token → Reading (Tree String × List Token)
  | 0, _, _, _, _ => .error "the document does not end"
  | fuel + 1, block, loose, stops, tokens =>
    if missingBefore stops tokens then .ok (empty, tokens) else readNode handles fuel block loose tokens

def readBlockItems (handles : Handles) : Nat → List Token → Reading (List (Tree String) × List Token)
  | 0, _ => .error "the document does not end"
  | fuel + 1, tokens =>
    match tokens with
    | .blockEntry :: rest =>
      match readOptional handles fuel true false [.blockEntry, .blockEnd] rest with
      | .error e => .error e
      | .ok (x, rest) => (readBlockItems handles fuel rest).map fun (xs, r) => (x :: xs, r)
    | .blockEnd :: rest => .ok ([], rest)
    | _ => .error "a sequence entry is expected"

def readLooseItems (handles : Handles) : Nat → List Token → Reading (List (Tree String) × List Token)
  | 0, _ => .error "the document does not end"
  | fuel + 1, tokens =>
    match tokens with
    | .blockEntry :: rest =>
      match readOptional handles fuel true false [.blockEntry, .key, .value, .blockEnd] rest with
      | .error e => .error e
      | .ok (x, rest) => (readLooseItems handles fuel rest).map fun (xs, r) => (x :: xs, r)
    | rest => .ok ([], rest)

def readBlockEntries (handles : Handles) :
    Nat → List Token → Reading (List (Tree String × Tree String) × List Token)
  | 0, _ => .error "the document does not end"
  | fuel + 1, tokens =>
    match tokens with
    | .key :: rest =>
      match readOptional handles fuel true true [.key, .value, .blockEnd] rest with
      | .error e => .error e
      | .ok (k, rest) =>
        let value := match rest with
          | .value :: rest => readOptional handles fuel true true [.key, .value, .blockEnd] rest
          | _ => .ok (empty, rest)
        match value with
        | .error e => .error e
        | .ok (v, rest) => (readBlockEntries handles fuel rest).map fun (es, r) => ((k, v) :: es, r)
    | .blockEnd :: rest => .ok ([], rest)
    | _ => .error "a mapping key is expected"

/-- Behind `[` or an item. A key inside makes a mapping of one entry; one without a name takes the token that
follows it along. -/
def readFlowItems (handles : Handles) : Nat → Bool → List Token → Reading (List (Tree String) × List Token)
  | 0, _, _ => .error "the document does not end"
  | fuel + 1, first, tokens =>
    match tokens with
    | .flowSequenceEnd :: rest => .ok ([], rest)
    | _ =>
      let behind := match first, tokens with
        | true, rest => some rest
        | false, .flowEntry :: rest => some rest
        | false, _ => none
      match behind with
      | none => .error "a comma or a closing bracket is expected"
      | some (.flowSequenceEnd :: rest) => .ok ([], rest)
      | some (.key :: rest) =>
        let name := if missingBefore [.value, .flowEntry, .flowSequenceEnd] rest
          then .ok (empty, rest.drop 1) else readNode handles fuel false false rest
        match name with
        | .error e => .error e
        | .ok (k, rest) =>
          let value := match rest with
            | .value :: rest => readOptional handles fuel false false [.flowEntry, .flowSequenceEnd] rest
            | _ => .ok (empty, rest)
          match value with
          | .error e => .error e
          | .ok (v, rest) =>
            (readFlowItems handles fuel false rest).map fun (xs, r) =>
              (mapping [(k, v)] none none :: xs, r)
      | some rest =>
        match readNode handles fuel false false rest with
        | .error e => .error e
        | .ok (x, rest) => (readFlowItems handles fuel false rest).map fun (xs, r) => (x :: xs, r)

/-- Behind an opening brace or an entry. -/
def readFlowEntries (handles : Handles) :
    Nat → Bool → List Token → Reading (List (Tree String × Tree String) × List Token)
  | 0, _, _ => .error "the document does not end"
  | fuel + 1, first, tokens =>
    match tokens with
    | .flowMappingEnd :: rest => .ok ([], rest)
    | _ =>
      let behind := match first, tokens with
        | true, rest => some rest
        | false, .flowEntry :: rest => some rest
        | false, _ => none
      match behind with
      | none => .error "a comma or a closing brace is expected"
      | some (.flowMappingEnd :: rest) => .ok ([], rest)
      | some (.key :: rest) =>
        match readOptional handles fuel false false [.value, .flowEntry, .flowMappingEnd] rest with
        | .error e => .error e
        | .ok (k, rest) =>
          let value := match rest with
            | .value :: rest => readOptional handles fuel false false [.flowEntry, .flowMappingEnd] rest
            | _ => .ok (empty, rest)
          match value with
          | .error e => .error e
          | .ok (v, rest) =>
            (readFlowEntries handles fuel false rest).map fun (es, r) => ((k, v) :: es, r)
      | some rest =>
        match readNode handles fuel false false rest with
        | .error e => .error e
        | .ok (k, rest) =>
          (readFlowEntries handles fuel false rest).map fun (es, r) => ((k, empty) :: es, r)

end

/-- Directives before a document: at most one version, 1.1 or 1.2, and no handle twice. -/
def readDirectives : Bool → Handles → List Token → Reading (Handles × List Token)
  | versioned, handles, .version major minor :: rest =>
    if versioned then .error "the version is given twice"
    else if major = 1 ∧ (minor = 1 ∨ minor = 2) then readDirectives true handles rest
    else .error "the version is not supported"
  | versioned, handles, .tagDirective handle lead :: rest =>
    if (handles.lookup handle).isSome then .error "a tag handle is declared twice"
    else readDirectives versioned (handles ++ [(handle, lead)]) rest
  | _, handles, rest => .ok (handles, rest)

def isContentEnd : Token → Bool
  | .version _ _ | .tagDirective _ _ | .documentStart | .documentEnd | .streamEnd => true
  | _ => false

/-- The one document of a stream, none when there is nothing at all. -/
def ofTokens (tokens : List Token) : Reading (Option (Tree String)) :=
  let fuel := 4 * tokens.length + 16
  let closed (root : Tree String) (rest : List Token) : Reading (Option (Tree String)) :=
    match rest.dropWhile (· == .documentEnd) with
    | [.streamEnd] => .ok (some root)
    | _ => .error "text follows the document"
  match tokens with
  | [.streamEnd] => .ok none
  | .version _ _ :: _ | .tagDirective _ _ :: _ | .documentStart :: _ =>
    match readDirectives false [] tokens with
    | .error e => .error e
    | .ok (handles, .documentStart :: rest) =>
      if rest.head?.any isContentEnd then closed empty rest
      else match readNode (handles ++ standardHandles) fuel true false rest with
        | .error e => .error e
        | .ok (root, rest) => closed root rest
    | .ok _ => .error "directives are not followed by a document"
  | _ =>
    match readNode standardHandles fuel true false tokens with
    | .error e => .error e
    | .ok (root, rest) => closed root rest

end Tree
end Yaml
end NoteStencil
