import RouteDepot.Diagnostic
import RouteDepot.Excerpt.Line

/-! # Drawing a message below the bytes that it concerns

An excerpt of a source shows the lines of some bytes, with a frame on the left. Bytes of one line are
underlined, and the message hangs on the middle of the line below them. Bytes of several lines are bracketed on
the left, and the message hangs on the bracket.
-/

namespace RouteDepot.Excerpt

/-- The bytes that are marked for a span: no byte past the end of the source, and for a span without bytes the
character behind it, or else the one in front of it. -/
def widen (source : List Char) (span : Span) : Span :=
  let size := Text.byteLength source
  let start := min span.start size
  let stop := max start (min span.stop size)
  if start < stop then ⟨start, stop⟩
  else match Text.splitAtByte? source start with
    | some (_, c :: _) => ⟨start, start + c.utf8Size⟩
    | some (before, []) =>
      match before.getLast? with
      | some c => ⟨start - c.utf8Size, start⟩
      | none => ⟨start, start⟩
    | none => ⟨start, start⟩

/-- The marked part of a source: its first and its last line, and the columns where it begins and ends in them. -/
structure Extent where
  first : Line
  last : Line
  startColumn : Nat
  stopColumn : Nat

/-- The part of a source that some bytes make up; their last byte decides on the last line. -/
def Extent.ofBytes (source : List Char) (bytes : Span) : Extent :=
  let lines := linesOf source
  let first := lineOfByte lines bytes.start
  let startColumn := first.columnOfByte bytes.start
  if bytes.start < bytes.stop then
    let last := lineOfByte lines (bytes.stop - 1)
    ⟨first, last, startColumn, last.columnOfByte bytes.stop⟩
  else ⟨first, first, startColumn, startColumn⟩

namespace Extent

/-- Whether there are lines between the first and the last. -/
def hasGap (e : Extent) : Bool := e.first.number + 1 < e.last.number

/-- The strokes below the columns of a line: for every column a stroke at its beginning and one that fills it up. -/
def strokes (l : Line) (count : Nat) (stroke : Nat → Char × Char) : String :=
  String.ofList ((l.widths count).mapIdx fun column width =>
    let (head, tail) := stroke column
    (List.replicate width tail).set 0 head).flatten

/-- How far the strokes go beyond the columns that they mark. -/
def strokesBeyond : Nat := 2

/-- The spaces in place of a line number, with the blanks around it. -/
def margin (e : Extent) : String := "".pushn ' ' ((toString e.last.number).length + 2)

/-- A line of the source behind its number and what stands in front of it. -/
def numbered (e : Extent) (l : Line) (front : String) : String :=
  let number := toString l.number
  " " ++ "".pushn ' ' ((toString e.last.number).length - number.length) ++ number ++ " │ " ++ front ++ l.shown

/-- The rows for bytes of one line. -/
def underlined (e : Extent) (message : String) : List String :=
  let middle := (e.startColumn + e.stopColumn) / 2
  let count := e.stopColumn + strokesBeyond
  let isMarked (column : Nat) : Bool := e.startColumn ≤ column && column < e.stopColumn
  let underline := strokes e.first count fun column =>
    if column = middle then if isMarked column then ('┬', '─') else ('│', ' ')
    else if isMarked column then ('─', '─') else (' ', ' ')
  let hook := strokes e.first count fun column =>
    if column = middle then ('╰', '─') else if middle < column then ('─', '─') else (' ', ' ')
  [e.numbered e.first "", e.margin ++ "│ " ++ underline, e.margin ++ "│ " ++ hook ++ " " ++ message]

/-- The rows for bytes of several lines. -/
def bracketed (e : Extent) (message : String) : List String :=
  let count := e.last.text.length + strokesBeyond
  let gap := if e.hasGap then [e.margin ++ "┆ ┆   "] else []
  [e.numbered e.first "╭─▶ "] ++ gap ++
    [e.numbered e.last "├─▶ ",
      e.margin ++ "│ │   " ++ strokes e.last count fun _ => (' ', ' '),
      e.margin ++ "│ ╰───" ++ (strokes e.last count fun _ => ('─', '─')) ++ " " ++ message]

/-- The frame around the marked lines, under a title and the place in the source. -/
def rows (e : Extent) (title name message : String) : List String :=
  [s!"Error: {title}",
    e.margin ++ s!"╭─[ {name}:{e.first.number}:{e.startColumn + 1} ]",
    e.margin ++ "│"] ++
  (if e.first.number = e.last.number then e.underlined message else e.bracketed message) ++
  ["".pushn '─' ((toString e.last.number).length + 2) ++ "╯"]

end Extent

/-- The drawing for one diagnostic: every row with a line end. -/
def draw (title name source : String) (diagnostic : Diagnostic) : String :=
  let cs := source.toList
  let extent := Extent.ofBytes cs (widen cs diagnostic.span)
  String.join ((extent.rows title name diagnostic.message).map (· ++ "\n"))

end RouteDepot.Excerpt
