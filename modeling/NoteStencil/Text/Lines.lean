/-! Text as lines. A file's lines end at line feeds, and one carriage return before a line feed belongs to
the terminator; octets and characters are cut by the same rule. Text put into a document is cut at
every kind of line break. -/

namespace NoteStencil

/-- Pieces between terminators, each with whether a terminator closed it. -/
def cutAt [DecidableEq α] (terminator : α) : List α → List (List α × Bool)
  | [] => []
  | c :: rest =>
    if c = terminator then ([], true) :: cutAt terminator rest
    else match cutAt terminator rest with
      | [] => [([c], false)]
      | (piece, closed) :: more => (c :: piece, closed) :: more

/-- A carriage return is part of the terminator, so a piece that nothing closed keeps it. -/
def withoutReturn [DecidableEq α] (ret : α) (piece : List α × Bool) : List α :=
  if piece.2 ∧ piece.1.getLast? = some ret then piece.1.dropLast else piece.1

def cutLines [DecidableEq α] (feed ret : α) (text : List α) : List (List α) :=
  (cutAt feed text).map (withoutReturn ret)

def textLines (s : String) : List String :=
  (cutLines '\n' '\r' s.toList).map String.ofList

def joinLines (lines : List String) : String :=
  "\n".intercalate lines

/-- Each line with its own terminator: what a file of these lines holds. -/
def closeLines (lines : List String) : String :=
  String.join (lines.map (· ++ "\n"))

/-- Pieces of a text cut at `\r\n`, `\r` and `\n`; never none. -/
def breakPieces : List Char → List (List Char)
  | [] => [[]]
  | '\r' :: '\n' :: rest => [] :: breakPieces rest
  | c :: rest =>
    if c = '\r' ∨ c = '\n' then [] :: breakPieces rest
    else match breakPieces rest with
      | [] => [[c]]
      | piece :: more => (c :: piece) :: more

/-- A break at the very end opens no further line. -/
def dropLastBlank (pieces : List (List Char)) : List (List Char) :=
  if 1 < pieces.length ∧ pieces.getLast? = some [] then pieces.dropLast else pieces

def splitLines (text : String) : List String :=
  (dropLastBlank (breakPieces text.toList)).map String.ofList

end NoteStencil
