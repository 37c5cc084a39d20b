import RouteDepot.Text.Blank
import RouteDepot.Text.Offset
import RouteDepot.Text.Width

/-! # Lines of a source as they are shown

A source is shown line by line. All line ends of Unicode count here, and a line keeps its end, so the lines one
after another are the source. Shown on a terminal, a tab fills up to the next tab stop, every other blank is one
space, and all other characters take the columns that they have there.
-/

namespace RouteDepot.Excerpt

/-- The characters that end a line. -/
def isLineEnd (c : Char) : Bool :=
  c == '\n' || c == '\r' || c == '\x0b' || c == '\x0c' || c == '\u0085' || c == '\u2028' || c == '\u2029'

/-- A character in front of the first of some lines. -/
def extendFirst (c : Char) : List (List Char) → List (List Char)
  | [] => [[c]]
  | line :: later => (c :: line) :: later

/-- A text cut behind every line end; a carriage return and a line feed are one end. -/
def cutLines : List Char → List (List Char)
  | [] => []
  | '\r' :: '\n' :: cs => ['\r', '\n'] :: cutLines cs
  | c :: cs => if isLineEnd c then [c] :: cutLines cs else extendFirst c (cutLines cs)

/-- A line of a source. -/
structure Line where
  /-- The place among the lines, counted from one. -/
  number : Nat
  /-- The bytes of the source in front of the line. -/
  start : Nat
  /-- The characters with the line end. -/
  text : List Char
  deriving DecidableEq, Repr, Inhabited

/-- Texts as lines, from a number and a byte on. -/
def placeLines (number start : Nat) : List (List Char) → List Line
  | [] => []
  | text :: later => ⟨number, start, text⟩ :: placeLines (number + 1) (start + Text.byteLength text) later

/-- The lines of a source. -/
def linesOf (source : List Char) : List Line := placeLines 1 0 (cutLines source)

/-- The last line that begins at a byte or in front of it. -/
def lineOfByte (lines : List Line) (offset : Nat) : Line :=
  (lines.reverse.find? (·.start ≤ offset)).getD ⟨1, 0, []⟩

namespace Line

/-- The characters of a line in front of a byte of the source. -/
def columnOfByte (l : Line) (offset : Nat) : Nat := (Text.textBefore l.text (offset - l.start)).length

/-- The distance of tab stops. -/
def tabStop : Nat := 4

/-- What is shown for a character in some column, and the columns that it takes. -/
def cell (column : Nat) (c : Char) : List Char × Nat :=
  if c = '\t' then
    let width := (column / tabStop + 1) * tabStop - column
    (List.replicate width ' ', width)
  else if Text.isBlank c then ([' '], 1)
  else ([c], Text.displayWidth c)

/-- What is shown of a line: all but the blanks at its end. -/
def cells (l : Line) : List (List Char × Nat) := (Text.trimEndList l.text).mapIdx cell

/-- The text that is shown. -/
def shown (l : Line) : String := String.ofList (l.cells.flatMap Prod.fst)

/-- The widths of the first columns; behind the text that is shown every column is one wide. -/
def widths (l : Line) (count : Nat) : List Nat := (l.cells.map Prod.snd ++ List.replicate count 1).take count

end Line

end RouteDepot.Excerpt
