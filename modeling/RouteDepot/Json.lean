/-! # JSON values and their text

Objects keep their fields in the order in which they were put there. A value has two texts: one line without
spaces, and an indented one with one field or item per line.
-/

namespace RouteDepot

/-- A JSON value. -/
inductive Json where
  | null
  | bool (value : Bool)
  | num (value : Int)
  /-- A number that is no integer, by its text. -/
  | real (text : String)
  | str (value : String)
  | arr (items : List Json)
  | obj (fields : List (String × Json))
  deriving Inhabited

namespace Json

/-- A text or null. -/
def ofOption (text : Option String) : Json := (text.map str).getD null

/-- A list of texts. -/
def strings (texts : List String) : Json := arr (texts.map str)

/-- A count, an offset or another natural number. -/
def nat (n : Nat) : Json := num n

/-- The digit of a value below sixteen. -/
def hexChar (value : Nat) : Char :=
  if value < 10 then Char.ofNat ('0'.toNat + value) else Char.ofNat ('a'.toNat + value - 10)

/-- A character as it stands inside a quoted text: quotes, backslashes and control characters are escaped. -/
def escapeChar (c : Char) : List Char :=
  match c with
  | '"' => ['\\', '"']
  | '\\' => ['\\', '\\']
  | '\n' => ['\\', 'n']
  | '\r' => ['\\', 'r']
  | '\t' => ['\\', 't']
  | '\x08' => ['\\', 'b']
  | '\x0c' => ['\\', 'f']
  | c => if c.toNat < 0x20 then ['\\', 'u', '0', '0', hexChar (c.toNat / 16), hexChar (c.toNat % 16)] else [c]

/-- A text between quotes. -/
def quoted (s : String) : String := "\"" ++ String.ofList (s.toList.flatMap escapeChar) ++ "\""

mutual

/-- The text on one line without spaces. -/
def compact : Json → String
  | null => "null"
  | bool value => if value then "true" else "false"
  | num value => toString value
  | real text => text
  | str value => quoted value
  | arr items => "[" ++ ",".intercalate (compactItems items) ++ "]"
  | obj fields => "\x7b" ++ ",".intercalate (compactFields fields) ++ "\x7d"

/-- The texts of the items of an array. -/
def compactItems : List Json → List String
  | [] => []
  | item :: items => item.compact :: compactItems items

/-- The texts of the fields of an object. -/
def compactFields : List (String × Json) → List String
  | [] => []
  | (key, value) :: fields => (quoted key ++ ":" ++ value.compact) :: compactFields fields

end

/-- Lines between two brackets, one step further in than the brackets; no lines at all stay on one line. -/
def bracketed (margin opening closing : String) : List String → String
  | [] => opening ++ closing
  | lines => opening ++ "\n" ++ ",\n".intercalate lines ++ "\n" ++ margin ++ closing

mutual

/-- The indented text, behind a margin that its first line already has. -/
def indented (margin : String) : Json → String
  | arr items => bracketed margin "[" "]" (indentedItems (margin ++ "  ") items)
  | obj fields => bracketed margin "\x7b" "\x7d" (indentedFields (margin ++ "  ") fields)
  | null => "null"
  | bool value => if value then "true" else "false"
  | num value => toString value
  | real text => text
  | str value => quoted value

/-- The indented items of an array. -/
def indentedItems (margin : String) : List Json → List String
  | [] => []
  | item :: items => (margin ++ item.indented margin) :: indentedItems margin items

/-- The indented fields of an object. -/
def indentedFields (margin : String) : List (String × Json) → List String
  | [] => []
  | (key, value) :: fields =>
    (margin ++ quoted key ++ ": " ++ value.indented margin) :: indentedFields margin fields

end

mutual

/-- The value with the fields of its objects in ascending order. -/
def sorted : Json → Json
  | arr items => arr (sortedItems items)
  | obj fields => obj ((sortedFields fields).mergeSort fun a b => a.1 ≤ b.1)
  | value => value

/-- The items of an array, each with its fields in ascending order. -/
def sortedItems : List Json → List Json
  | [] => []
  | item :: items => item.sorted :: sortedItems items

/-- The fields of an object, the value of each with its fields in ascending order. -/
def sortedFields : List (String × Json) → List (String × Json)
  | [] => []
  | (key, value) :: fields => (key, value.sorted) :: sortedFields fields

end

/-- The indented text. -/
def pretty (value : Json) : String := value.indented ""

end Json

end RouteDepot
