import RouteDepot.Text.Cut

/-! # Lines of a text

A line ends at a line feed; a carriage return in front of the line feed belongs to the end of the line.
-/

namespace RouteDepot.Text

/-- A text without one carriage return at its end. -/
def withoutReturn (cs : List Char) : List Char :=
  match cs.getLast? with
  | some '\r' => cs.dropLast
  | _ => cs

/-- Pieces as lines: the last piece is a line of its own only if it holds something. -/
def linesOfPieces : List (List Char) → List (List Char)
  | [] => []
  | [last] => if last.isEmpty then [] else [last]
  | piece :: later => withoutReturn piece :: linesOfPieces later

/-- The lines of a text without their ends. -/
def lines (s : String) : List String := (linesOfPieces (piecesList '\n' s.toList)).map String.ofList

end RouteDepot.Text
