import RouteDepot.Text.Reader

/-! # Blanks of a configuration text

Blanks inside a line are spaces and tabs; lines end at a line feed, perhaps with a carriage return in front of it; a
comment reaches to the end of its line.
-/

namespace RouteDepot.Toml.Spacing

open Text Text.Reader

/-- The blanks inside a line. -/
def isSpace (c : Char) : Bool := c == ' ' || c == '\t'

/-- The characters that stand for themselves in a comment: all but control characters. -/
def isPlain (c : Char) : Bool := c == '\t' || (' ' ≤ c && c != '\x7f')

/-- Takes the blanks at the front. -/
def spaces : Reader Unit := do
  let _ ← takeWhile isSpace

/-- What is behind the line end at the front, if there is one. -/
def behindLineEnd? : List Char → Option (List Char)
  | '\n' :: cs => some cs
  | '\r' :: '\n' :: cs => some cs
  | _ => none

/-- Takes a comment, if there is one. -/
def comment : Reader Unit := do
  if ← accept '#' then
    let _ ← takeWhile isPlain

/-- Takes the rest of a line that may hold blanks and a comment, with its end. -/
def restOfLine : Reader Unit := do
  spaces
  comment
  match ← get with
  | [] => return
  | cs =>
    match behindLineEnd? cs with
    | some rest => set rest
    | none => failure

/-- What is behind blanks, comments and line ends; at the beginning a comment may be open. -/
def behindLayout (inComment : Bool) : List Char → List Char
  | [] => []
  | '\r' :: '\n' :: cs => behindLayout false cs
  | c :: cs =>
    if c = '\n' then behindLayout false cs
    else if inComment then (if isPlain c then behindLayout true cs else c :: cs)
    else if isSpace c then behindLayout false cs
    else if c = '#' then behindLayout true cs
    else c :: cs

/-- Takes blanks, comments and line ends. -/
def layout : Reader Unit := modify (behindLayout false)

end RouteDepot.Toml.Spacing
