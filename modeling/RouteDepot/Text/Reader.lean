/-! # Readers

A reader takes something from the front of a text, or fails.
-/

namespace RouteDepot.Text

/-- Takes something from the front of a text. -/
abbrev Reader := StateT (List Char) Option

namespace Reader

/-- Takes one character. -/
def character : Reader Char := fun
  | c :: cs => some (c, cs)
  | [] => none

/-- Takes one given character. -/
def expect (wanted : Char) : Reader Unit := do
  if (← character) ≠ wanted then failure

/-- Takes given characters. -/
def expectAll (wanted : String) : Reader Unit := wanted.toList.forM expect

/-- Takes a given character if it is the next one, and says whether it was. -/
def accept (wanted : Char) : Reader Bool := fun
  | c :: cs => some (if c = wanted then (true, cs) else (false, c :: cs))
  | [] => some (false, [])

/-- Takes one of two given characters if it is the next one, and says whether it was. -/
def acceptEither (first second : Char) : Reader Bool := do
  if ← accept first then return true else accept second

/-- Takes the longest front part of characters of a kind. -/
def takeWhile (p : Char → Bool) : Reader (List Char) := fun cs => some (cs.takeWhile p, cs.dropWhile p)

/-- Repeats a reader that says whether it has to be repeated; every turn but the last has to take something. -/
def many {α : Type} (turn : Reader (List α × Bool)) (cs : List Char) : Option (List α × List Char) :=
  match turn cs with
  | none => none
  | some ((items, false), rest) => some (items, rest)
  | some ((items, true), rest) =>
    if _shorter : rest.length < cs.length then
      (many turn rest).map fun (later, rest) => (items ++ later, rest)
    else none
termination_by cs.length

end Reader

end RouteDepot.Text
