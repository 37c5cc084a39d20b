import RouteDepot.Text.Blank
import RouteDepot.Text.Utf8

/-! # Lines of a variable file

A line ends at a line feed, unless a quotation is open or a blank stands at the end of the file; then it goes on
with the next one. A number sign at the front of a line, or behind a blank, begins a comment.
-/

namespace RouteDepot.VariableFile

/-- What stands in front of a character. -/
inductive LineState where
  | plain
  | escape
  | blank
  /-- A quotation between single quotes. -/
  | strong
  | strongEscape
  /-- A quotation between double quotes. -/
  | weak
  | weakEscape
  deriving DecidableEq, Repr

/-- The state behind a character outside of quotations. -/
def LineState.opening (c : Char) : LineState :=
  match c with
  | '\\' => .escape
  | '"' => .weak
  | '\'' => .strong
  | _ => .plain

/-- The state behind a character. -/
def LineState.next (state : LineState) (c : Char) : LineState :=
  match state with
  | .plain => if Text.isBlank c && c != '\n' && c != '\r' then .blank else .opening c
  | .blank => .opening c
  | .escape => .plain
  | .weak => if c = '\\' then .weakEscape else if c = '"' then .plain else .weak
  | .weakEscape => .weak
  | .strong => if c = '\\' then .strongEscape else if c = '\'' then .plain else .strong
  | .strongEscape => .strong

/-- How far a line was read. -/
inductive LineEnd where
  /-- The whole line was read. -/
  | ended (state : LineState)
  /-- A comment begins behind some characters. -/
  | comment (kept : List Char)
  deriving DecidableEq, Repr

/-- The end of a line with one more character in front. -/
def LineEnd.behind (c : Char) : LineEnd → LineEnd
  | .ended state => .ended state
  | .comment kept => .comment (c :: kept)

/-- Reads a line. -/
def scanLine (state : LineState) : List Char → LineEnd
  | [] => .ended state
  | c :: cs => if state = .blank ∧ c = '#' then .comment [] else (scanLine (state.next c) cs).behind c

/-- A line without the line feed at its end, and without the carriage return in front of it. -/
def withoutEnd (line : List Char) : List Char :=
  match line.reverse with
  | '\n' :: '\r' :: front => front.reverse
  | '\n' :: front => front.reverse
  | _ => line

/-- The lines that physical lines make up, each with what is read of it so far in front; where no line can be had,
the list ends with an absent one. A comment is cut off. -/
def joinLines (front : List Char) (state : LineState) : List (Option (List Char)) → List (Option (List Char))
  | [] => if state = .plain then [] else [none]
  | none :: _ => [none]
  | some line :: later =>
    let whole := front ++ line
    if (whole.dropWhile Text.isBlank).head? = some '#' then some [] :: joinLines [] .plain later
    else match scanLine state line with
      | .comment kept => some (front ++ kept) :: joinLines [] .plain later
      | .ended .plain => some (withoutEnd whole) :: joinLines [] .plain later
      | .ended state => joinLines whole state later

/-- Bytes cut behind each line feed. -/
def physicalLines : List UInt8 → List (List UInt8)
  | [] => []
  | byte :: bytes =>
    if byte = 10 then [byte] :: physicalLines bytes
    else match physicalLines bytes with
      | [] => [[byte]]
      | line :: later => (byte :: line) :: later

/-- The bytes without the mark that some texts begin with. -/
def withoutMark : List UInt8 → List UInt8
  | 0xEF :: 0xBB :: 0xBF :: bytes => bytes
  | bytes => bytes

/-- The lines of a file. -/
def lines (bytes : List UInt8) : List (Option (List Char)) :=
  joinLines [] .plain ((physicalLines (withoutMark bytes)).map fun line =>
    (Text.charactersOfUtf8 0 none line).toOption)

end RouteDepot.VariableFile
