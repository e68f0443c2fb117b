import NoteStencil.Failure
import NoteStencil.Text.Lines
import NoteStencil.Yaml.Value

/-! Notes: an identity, other names, tags, free metadata in order, and lines of text. Metadata holds neither the
identity nor names nor tags, which have fields of their own; a key that reads as one of theirs is left out
when the note is put together again. -/

namespace NoteStencil

structure Note where
  id : Option String := none
  title : Option String := none
  path : Option Path := none
  aliases : List String := []
  /-- In order and without repetition, as only membership matters. -/
  tags : List String := []
  metadata : Yaml.Mapping := []
  hasFrontmatter : Bool := false
  /-- Index of the closing delimiter in the lines the note was read from. -/
  closingLine : Option Nat := none
  body : List String := []
  deriving Inhabited

namespace Note

def insertTag (tag : String) : List String → List String
  | [] => [tag]
  | t :: rest => if tag = t then t :: rest else if tag < t then tag :: t :: rest else t :: insertTag tag rest

def addTag (n : Note) (tag : String) : Note := { n with tags := insertTag tag n.tags }

/-- At the end, unless it is there. -/
def addAlias (n : Note) (name : String) : Note :=
  if name ∈ n.aliases then n else { n with aliases := n.aliases ++ [name] }

def addTags (n : Note) (tags : List String) : Note := tags.foldl addTag n

def addAliases (n : Note) (names : List String) : Note := names.foldl addAlias n

/-- The name to show: the title, else the first other name, else the identity, else the stem of the file. -/
def displayName (n : Note) : String :=
  (((n.title.or n.aliases.head?).or n.id).or (n.path.bind Path.fileStem)).getD ""

def idKey : String := "id"
def aliasesKey : String := "aliases"
def tagsKey : String := "tags"

def isReserved (key : Yaml.Value) : Bool :=
  match key.text? with
  | some text => text == idKey || text == aliasesKey || text == tagsKey
  | none => false

def textsEntry (key : String) (texts : List String) : Yaml.Mapping :=
  if texts = [] then [] else [(.string key, .sequence (texts.map .string))]

/-- Identity, names and tags first, then the metadata. -/
def frontmatter (n : Note) : Yaml.Mapping :=
  n.id.toList.map (fun id => (.string idKey, .string id)) ++ textsEntry aliasesKey n.aliases ++
    textsEntry tagsKey n.tags ++ n.metadata.filter (!isReserved ·.1)

/-- Puts entries in; those with a key that is there already give it their value. -/
def putMetadata (n : Note) (entries : Yaml.Mapping) : Note :=
  { n with metadata := entries.foldl (fun m e => Table.put e.1 e.2 m) n.metadata }

/-- Takes over metadata, tags and other names of a template; its values win, nothing is dropped. -/
def absorb (n template : Note) : Note :=
  ((n.putMetadata template.metadata).addTags template.tags).addAliases template.aliases

end Note
end NoteStencil
