import NoteStencil.Context
import NoteStencil.Note.Basic

/-! Settings of expansion, and the context in which a template is expanded against a note. The user's values come
first; built-in names are only bound when the user has not bound them. -/

namespace NoteStencil

def defaultDateFormat : String := "%Y-%m-%d"

def defaultTimeFormat : String := "%H:%M"

structure Settings where
  dateFormat : String := defaultDateFormat
  timeFormat : String := defaultTimeFormat
  substitutions : Table String String := []
  deriving DecidableEq, Repr

def builtIns (n : Note) (settings : Settings) (now : Instant) : Table String Substitution :=
  [("date", .computed (.clock now settings.dateFormat defaultDateFormat)),
   ("time", .computed (.clock now settings.timeFormat defaultTimeFormat)),
   ("title", .literal n.displayName)] ++
  n.id.toList.map (fun id => ("id", .literal id)) ++
  n.path.toList.map (fun p => ("path", .literal p.text))

def Context.ofNote (n : Note) (settings : Settings) (now : Instant) : Context :=
  let own := settings.substitutions.foldl (fun c e => c.bind e.1 (.literal e.2)) ({} : Context)
  (builtIns n settings now).foldl (fun c e => c.bindNew e.1 e.2) own

end NoteStencil
