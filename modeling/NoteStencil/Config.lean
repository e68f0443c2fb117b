import NoteStencil.Dictionary
import NoteStencil.Environment
import NoteStencil.FileSystem.Store
import NoteStencil.Settings
import NoteStencil.Toml.Document
import NoteStencil.Toml.Written

/-! The user's configuration and its file. Fields with default values are not written; fields that are not known are
passed over when a file is read. A relative templates directory lies in the vault, and the vault is no part of
the file. -/

namespace NoteStencil

structure Config where
  templatesDir : Option String := none
  dateFormat : String := defaultDateFormat
  timeFormat : String := defaultTimeFormat
  substitutions : Dictionary := .empty
  vault : Option Path := none
  deriving DecidableEq

namespace Config

/-! ### Fields of the file -/

def templatesDirKey : String := "templates_dir"

def dateFormatKey : String := "date_format"

def timeFormatKey : String := "time_format"

def substitutionsKey : String := "substitutions"

/-- The text of a field, if the field is there; fails when it holds something else. -/
def textField? (t : Toml.Entries) (key : String) : Option (Option String) :=
  match t.find? key with
  | none => some none
  | some (.text s) => some (some s)
  | some _ => none

def textEntry? : String × Toml.Value → Option (String × String)
  | (key, .text s) => some (key, s)
  | _ => none

/-- A date or time counts as a table with one entry, which has this key. -/
def momentKey : String := "$__toml_private_datetime"

def substitutionsField? (t : Toml.Entries) : Option Dictionary :=
  match t.find? substitutionsKey with
  | none => some .empty
  | some (.table _ entries) => (entries.mapM textEntry?).map .ofList
  | some (.moment spelling) => some (.ofList [(momentKey, spelling)])
  | some _ => none

def ofEntries? (t : Toml.Entries) : Option Config :=
  match textField? t templatesDirKey, textField? t dateFormatKey, textField? t timeFormatKey,
    substitutionsField? t with
  | some templatesDir, some date, some time, some substitutions =>
    some { templatesDir, substitutions, dateFormat := date.getD defaultDateFormat
           timeFormat := time.getD defaultTimeFormat }
  | _, _, _, _ => none

def parse? (text : String) : Option Config := (Toml.parse? text).bind ofEntries?

def unreadableReason : String := "the file is not a valid configuration"

def load (fs : FileSystem) (p : Path) : Except Failure Config :=
  match fs.textAt p with
  | .error failure => .error failure
  | .ok text => match parse? text with
    | some c => .ok c
    | none => .error (.configuration p unreadableReason)

/-! ### Where the file is -/

/-- The variable that names another file than the usual one. -/
def fileVariable : String := "FRONTPLATE_CONFIG"

def homelessReason : String := "unable to determine home directory"

def defaultPath (e : Environment) : Except Failure Path :=
  match (e.find? fileVariable).filter (· ≠ ""), e.home? with
  | some text, _ => .ok ⟨text⟩
  | none, some home => .ok (((⟨home⟩ : Path).join ⟨".frontplate"⟩).join ⟨"config.toml"⟩)
  | none, none => .error (.configuration ⟨"~/.frontplate/config.toml"⟩ homelessReason)

/-- The configuration of the file that is given, or else of the default one; all defaults when it is not there. -/
def loadOptional (fs : FileSystem) (e : Environment) (given : Option Path) : Except Failure Config :=
  match given.elim (defaultPath e) .ok with
  | .error failure => .error failure
  | .ok p => if fs.exists? p then load fs p else .ok {}

/-! ### Writing -/

/-- Fields with their texts, without those that have their default value. -/
def fields (c : Config) : List (String × String) :=
  c.templatesDir.toList.map (fun dir => (templatesDirKey, dir)) ++
    (if c.dateFormat = defaultDateFormat then [] else [(dateFormatKey, c.dateFormat)]) ++
    (if c.timeFormat = defaultTimeFormat then [] else [(timeFormatKey, c.timeFormat)])

/-- The substitutions stand last, as a table with a header, behind a blank line. -/
def chars (c : Config) : List Char :=
  Toml.writeEntries c.fields ++
    if c.substitutions.entries = [] then []
    else (if c.fields = [] then [] else ['\n']) ++ Toml.writeHeader substitutionsKey ++
      Toml.writeEntries c.substitutions.entries

def text (c : Config) : String := String.ofList c.chars

def save (c : Config) (fs : FileSystem) (p : Path) : Except Failure Unit × FileSystem :=
  match fs.ensureParent p with
  | (.error failure, fs') => (.error failure, fs')
  | (.ok (), fs') => fs'.storeText p c.text

/-! ### Use -/

def withVault (c : Config) (root : Path) : Config := { c with vault := some root }

/-- A templates directory whose variables cannot all be looked up is taken as it is written. -/
def templatesPath (c : Config) (e : Environment) : Option Path :=
  c.templatesDir.map fun raw =>
    let p : Path := ⟨(e.expand raw).toOption.getD raw⟩
    c.vault.elim p (·.join p)

def templatesWarning (c : Config) (e : Environment) : Option String :=
  c.templatesDir.bind fun raw =>
    match e.expand raw with
    | .ok _ => none
    | .error name =>
      some ("Could not expand templates_dir '" ++ raw ++ "': error looking key '" ++ name ++
        "' up: environment variable not found")

def settings (c : Config) : Settings :=
  { dateFormat := c.dateFormat, timeFormat := c.timeFormat, substitutions := c.substitutions.entries }

end Config
end NoteStencil
