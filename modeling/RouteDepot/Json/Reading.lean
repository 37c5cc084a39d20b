import RouteDepot.Json
import RouteDepot.Text.Hex
import RouteDepot.Text.Reader

/-! # Reading JSON texts

A text is read as one value with blanks around it. Arrays and objects may stand inside each other up to a depth.
-/

namespace RouteDepot.Json

open Text Text.Reader

/-- The blanks between the parts of a JSON text. -/
def isSpace (c : Char) : Bool := c == ' ' || c == '\t' || c == '\n' || c == '\r'

/-- Takes blanks. -/
def blanks : Reader Unit := do
  let _ ← takeWhile isSpace

/-! ### Strings -/

/-- Takes four hexadecimal digits as a number. -/
def hexUnit : Reader Nat := fun
  | a :: b :: c :: d :: cs => do return (Text.ofDigits 16 (← [a, b, c, d].mapM Text.hexDigit?), cs)
  | _ => none

/-- Takes the character that one number means, or that two numbers mean together. -/
def unitCharacter : Reader Char := do
  let unit ← hexUnit
  if 0xD800 ≤ unit ∧ unit < 0xDC00 then
    expectAll "\\u"
    let low ← hexUnit
    if 0xDC00 ≤ low ∧ low < 0xE000 then
      return Char.ofNat (0x10000 + (unit - 0xD800) * 0x400 + (low - 0xDC00))
    else failure
  else StateT.lift (Text.character? unit)

/-- Takes an escape behind its backslash. -/
def escape : Reader Char := do
  match ← character with
  | 'n' => return '\n'
  | 't' => return '\t'
  | 'r' => return '\r'
  | 'b' => return '\x08'
  | 'f' => return '\x0c'
  | 'u' => unitCharacter
  | c => if c == '"' || c == '\\' || c == '/' then return c else failure

/-- Whether a character stands for itself between quotes. -/
def isPlain (c : Char) : Bool := ' ' ≤ c && c != '"' && c != '\\'

/-- A piece of a string, and whether there is another behind it. -/
def stringPiece : Reader (List Char × Bool) := do
  let plain ← takeWhile isPlain
  match ← character with
  | '"' => return (plain, false)
  | '\\' => return (plain ++ [← escape], true)
  | _ => failure

/-- Takes a string behind its first quote. -/
def stringInside : Reader String := String.ofList <$> many stringPiece

/-! ### Numbers -/

/-- Takes one digit or more. -/
def someDigits : Reader (List Char) := do
  let digits ← takeWhile Char.isDigit
  if digits.isEmpty then failure
  return digits

/-- Takes a point and the digits behind it, if there is one. -/
def fraction : Reader (List Char) := do
  if ← accept '.' then return '.' :: (← someDigits) else return []

/-- Takes the sign of an exponent, if there is one. -/
def exponentSign : Reader (List Char) := do
  if ← accept '-' then return ['-']
  if ← accept '+' then return ['+']
  return []

/-- Takes an exponent with its mark, if there is one. -/
def exponent : Reader (List Char) := do
  if ← acceptEither 'e' 'E' then return 'e' :: (← exponentSign) ++ (← someDigits) else return []

/-- Takes a number; digits in front of the point begin with a zero only if it stands alone. -/
def number : Reader Json := do
  let negative ← accept '-'
  let whole ← someDigits
  if whole.head? = some '0' ∧ 1 < whole.length then failure
  let behind := (← fraction) ++ (← exponent)
  let magnitude := Text.ofDigits 10 (whole.filterMap Text.hexDigit?)
  if behind.isEmpty && !(negative && magnitude == 0) then
    return .num (if negative then -magnitude else magnitude)
  else return .real (String.ofList ((if negative then ['-'] else []) ++ whole ++ behind))

/-! ### Values -/

/-- An item of an array, and whether there is another behind it. -/
def itemPart (value : Reader Json) : Reader (List Json × Bool) := do
  let item ← value
  blanks
  if ← accept ',' then return ([item], true)
  expect ']'
  return ([item], false)

/-- A field of an object, and whether there is another behind it. -/
def fieldPart (value : Reader Json) : Reader (List (String × Json) × Bool) := do
  blanks
  expect '"'
  let key ← stringInside
  blanks
  expect ':'
  let content ← value
  blanks
  if ← accept ',' then return ([(key, content)], true)
  expect '}'
  return ([(key, content)], false)

/-- The most containers that may stand inside each other. -/
def nestingLimit : Nat := 127

/-- Takes a value with room for so many containers inside each other. -/
def readValue (room : Nat) : Reader Json := do
  blanks
  match ← get, room with
  | '"' :: cs, _ => set cs; return .str (← stringInside)
  | 't' :: _, _ => expectAll "true"; return .bool true
  | 'f' :: _, _ => expectAll "false"; return .bool false
  | 'n' :: _, _ => expectAll "null"; return .null
  | '[' :: cs, room + 1 =>
    set cs
    blanks
    if ← accept ']' then return .arr []
    return .arr (← many (itemPart (readValue room)))
  | '{' :: cs, room + 1 =>
    set cs
    blanks
    if ← accept '}' then return .obj []
    return .obj (← many (fieldPart (readValue room)))
  | _, _ => number

/-- The value of a text. -/
def ofText? (text : String) : Option Json :=
  match readValue nestingLimit text.toList with
  | some (value, rest) => if rest.all isSpace then some value else none
  | none => none

/-! ### Parts of values -/

/-- The text that a value is. -/
def text? : Json → Option String
  | str value => some value
  | _ => none

/-- The flag that a value is. -/
def flag? : Json → Option Bool
  | bool value => some value
  | _ => none

/-- The natural number that a value is. -/
def natural? : Json → Option Nat
  | num (.ofNat value) => some value
  | _ => none

/-- The items of an array. -/
def items? : Json → Option (List Json)
  | arr items => some items
  | _ => none

/-- The fields of an object. -/
def fields? : Json → Option (List (String × Json))
  | obj fields => some fields
  | _ => none

/-- The value of a field, the last one of its name; null means that there is none. -/
def field? (value : Json) (key : String) : Option Json := do
  match ← (← value.fields?).reverse.lookup key with
  | null => none
  | content => some content

end RouteDepot.Json
