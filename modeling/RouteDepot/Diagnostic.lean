import RouteDepot.Text.Offset

/-! # Diagnostics

A finding is a cause together with the bytes of the source that it concerns. A diagnostic is a finding as it
is shown: with a message, and with the line and the column where its bytes begin.
-/

namespace RouteDepot

/-- The bytes of the source from `start` up to, and without, `stop`. -/
structure Span where
  start : Nat
  stop : Nat
  deriving DecidableEq, Repr, Inhabited

/-- A cause of complaint and the bytes that it concerns. -/
structure Finding (Cause : Type) where
  span : Span
  cause : Cause
  deriving DecidableEq, Repr

/-- A message about a source text, with the line and the column of the first byte that it concerns. -/
structure Diagnostic where
  message : String
  span : Span
  line : Nat
  column : Nat
  deriving DecidableEq, Repr

namespace Diagnostic

/-- The line on which a text ends, counted from one. -/
def lineAfter (text : List Char) : Nat := text.count '\n' + 1

/-- The column at which a text ends, counted in characters from one. -/
def columnAfter (text : List Char) : Nat := (text.reverse.takeWhile (· != '\n')).length + 1

/-- The diagnostic for bytes of a source. Offsets past the end, and offsets inside a character, are located
at the end of the source. -/
def locate (source : String) (span : Span) (message : String) : Diagnostic :=
  let before := Text.textBefore source.toList (min span.start source.utf8ByteSize)
  { message, span, line := lineAfter before, column := columnAfter before }

/-- Line, column and message, separated by colons. -/
def display (d : Diagnostic) : String := s!"{d.line}:{d.column}: {d.message}"

/-- The first diagnostic and the number of further ones. -/
def summarize : List Diagnostic → String
  | [] => "no diagnostics"
  | [only] => only.display
  | first :: more => s!"{first.display} (and {more.length} more)"

end Diagnostic

end RouteDepot
