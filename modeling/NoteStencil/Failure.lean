import NoteStencil.Fault
import NoteStencil.Path

/-! Ways in which an operation on templates and notes fails, each with what is needed to act on it, and the
report a user sees: a message, perhaps details, perhaps a suggestion. -/

namespace NoteStencil

inductive Failure
  | templatesDirUndefined
  | templateNotFound (name : String) (directory : Path) (suggestions : List String)
  | unreadable (path : Path) (fault : Fault)
  | unwritable (path : Path) (fault : Fault)
  | directoryNotMade (path : Path) (fault : Fault)
  | unclosedFrontmatter (origin : Path)
  | metadata (origin : Path) (reason : String)
  | configuration (path : Path) (reason : String)
  deriving DecidableEq, Repr

namespace Failure

def message : Failure → String
  | templatesDirUndefined => "No templates directory is configured"
  | templateNotFound name directory _ => "Template '" ++ name ++ "' not found in " ++ directory.text
  | unreadable path fault => "Failed to read " ++ path.text ++ ": " ++ fault.text
  | unwritable path fault => "Failed to write " ++ path.text ++ ": " ++ fault.text
  | directoryNotMade path fault => "Failed to create directory " ++ path.text ++ ": " ++ fault.text
  | unclosedFrontmatter origin =>
    "Invalid frontmatter in " ++ origin.text ++ ": opening '---' has no closing '---'"
  | metadata origin reason =>
    "Unable to process frontmatter metadata in " ++ origin.text ++ ": " ++ reason
  | configuration path reason => "Configuration error in " ++ path.text ++ ": " ++ reason

/-- What was being done to a file when the system refused. -/
def activity : Failure → Option String
  | unreadable _ _ => some "reading"
  | unwritable _ _ => some "writing"
  | directoryNotMade _ _ => some "creating directory"
  | _ => none

end Failure

structure Report where
  message : String
  details : Option String := none
  suggestion : Option String := none
  deriving DecidableEq, Repr

namespace Report

def faultAdvice : FaultKind → Option String
  | .denied => some "Check file and directory permissions"
  | .garbled => some "Ensure the file contains valid UTF-8 text"
  | .other => none

def ofFailure (f : Failure) : Report :=
  match f with
  | .templatesDirUndefined =>
    { message := f.message
      details := some "Template names are looked up relative to the templates directory"
      suggestion := some "Set 'templates_dir' in your config.toml or pass --config" }
  | .templateNotFound _ _ suggestions =>
    { message := f.message
      details := some ("Tried the name as given and with a '.md' suffix, inside the templates " ++
        "directory and as a plain path")
      suggestion := some (if suggestions = [] then "Run 'frontplate list' to see the available templates"
        else "Did you mean: " ++ ", ".intercalate suggestions ++ "?") }
  | .unreadable _ fault | .unwritable _ fault | .directoryNotMade _ fault =>
    { message := f.message, suggestion := faultAdvice fault.kind }
  | .unclosedFrontmatter _ =>
    { message := f.message
      details := some "A file that starts with '---' must close the block with another '---'"
      suggestion := some "Add a closing '---' line after the frontmatter block" }
  | .metadata _ _ =>
    { message := f.message
      suggestion := some "Check the YAML syntax between the '---' delimiters" }
  | .configuration _ _ =>
    { message := f.message, suggestion := some "Check the TOML syntax of the configuration file" }

def numbered : Nat → List String → List String
  | _, [] => []
  | n, cause :: rest => ("\n  " ++ toString n ++ ": " ++ cause) :: numbered (n + 1) rest

/-- An error of any other sort: what happened, then its causes from the nearest to the first. -/
def ofChain (message : String) (causes : List String) : Report :=
  { message := if causes = [] then message
      else message ++ "\n\nCaused by:" ++ String.join (numbered 1 causes) }

def optional (lead : String) : Option String → String
  | none => ""
  | some text => lead ++ text

def text (r : Report) : String :=
  r.message ++ optional "\nDetails: " r.details ++ optional "\nSuggestion: " r.suggestion

end Report

/-- Styles of words on a terminal. -/
inductive Style
  | boldRed
  | yellow
  | green
  | boldGreen
  deriving DecidableEq, Repr

def Style.code : Style → String
  | boldRed => "1;31"
  | yellow => "33"
  | green => "32"
  | boldGreen => "1;32"

def Style.opening (style : Style) : String := "\x1b[" ++ style.code ++ "m"

def Style.closing : String := "\x1b[0m"

/-- Text in a style, when colours are on; where the text itself closes a style, this one opens again. -/
def Style.paint (style : Style) (color : Bool) (text : String) : String :=
  if color then
    style.opening ++ text.replace Style.closing (Style.closing ++ style.opening) ++ Style.closing
  else text

namespace Report

def shownLine (color : Bool) (style : Style) (label : String) : Option String → String
  | none => ""
  | some text => style.paint color label ++ ": " ++ text ++ "\n"

/-- The report as it is printed. -/
def shown (color : Bool) (r : Report) : String :=
  shownLine color .boldRed "error" (some r.message) ++
    shownLine color .yellow "details" r.details ++
    shownLine color .green "suggestion" r.suggestion

end Report
end NoteStencil
