import NoteStencil.Buffer
import NoteStencil.Frontmatter
import NoteStencil.Note.Basic
import NoteStencil.Text.Blank
import NoteStencil.Yaml.Document
import NoteStencil.Yaml.Shown

/-! Notes from lines. The block gives identity, names, tags and metadata, the first heading of level one the title,
and the file's stem the identity when the block gives none. -/

namespace NoteStencil
namespace Note

/-- A single value as text. -/
def scalarText? : Yaml.Value → Option String
  | .string s => some s
  | .number n => some n.text
  | .bool b => some (toString b)
  | _ => none

/-- The texts of a list; a single value counts as a list of one. -/
def texts : Yaml.Value → List String
  | .sequence items => items.filterMap scalarText?
  | v => (scalarText? v).toList

/-- The key as one of the three that have fields of their own. -/
def readEntry (n : Note) (e : Yaml.Value × Yaml.Value) : Note :=
  if e.1.text? = some idKey then { n with id := scalarText? e.2 }
  else if e.1.text? = some aliasesKey then n.addAliases (texts e.2)
  else if e.1.text? = some tagsKey then n.addTags (texts e.2)
  else { n with metadata := Table.put e.1 e.2 n.metadata }

def readMapping (interior : List String) (origin : Path) : Except Failure Yaml.Mapping :=
  match Yaml.parse (joinLines interior) with
  | .error reason => .error (.metadata origin reason)
  | .ok .null => .ok []
  | .ok (.mapping m) => .ok m
  | .ok v => .error (.metadata origin ("expected a mapping of keys to values, found " ++ v.shown))

def headingLead : String := "# "

def isHeading (line : String) : Bool := headingLead.toList.isPrefixOf line.toList

/-- The text of the first heading of level one. -/
def headingOf (body : List String) : Option String :=
  (body.find? isHeading).map fun line => trim (String.ofList (line.toList.drop 2))

def noOrigin : Path := ⟨"<buffer>"⟩

def ofSplit (s : Split) (m : Yaml.Mapping) (path : Option Path) : Note :=
  let n := m.foldl readEntry
    { path, hasFrontmatter := s.hasBlock, closingLine := s.closingLine }
  { n with
    title := headingOf s.body
    id := n.id.or (path.bind Path.fileStem)
    body := s.body }

def ofLines (lines : List String) (path : Option Path) : Except Failure Note :=
  let origin := path.getD noOrigin
  match (LineCursor.ofLines lines origin).split with
  | .error failure => .error failure
  | .ok s =>
    if s.hasBlock then (readMapping s.interior origin).map fun m => ofSplit s m path
    else .ok (ofSplit s [] path)

def ofBuffer (b : Buffer) (path : Option Path) : Except Failure Note :=
  ofLines (b.slice 0 b.count) path

def ofFile (fs : FileSystem) (p : Path) : Except Failure Note :=
  match fs.textAt p with
  | .error failure => .error failure
  | .ok text => ofLines (textLines text) (some p)

end Note
end NoteStencil
