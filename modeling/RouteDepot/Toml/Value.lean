import RouteDepot.Binary64.Shortest
import RouteDepot.Json
import RouteDepot.Toml.Moment

/-! # Values of a configuration text

A value is a scalar, an array, or a table. The text of a value inside others is the one that a configuration
text would have for it on one line.
-/

namespace RouteDepot.Toml

/-- A value; the keys of a table are in ascending order, each once. -/
inductive Value where
  | str (value : String)
  | int (value : Int)
  | real (value : Binary64)
  | bool (value : Bool)
  | moment (value : Moment)
  | arr (items : List Value)
  | table (fields : List (String × Value))
  deriving Inhabited

/-! ### Quoted texts -/

namespace Quoted

/-- Whether a text has three of a character in a row. -/
def hasTriple (c : Char) : List Char → Bool
  | a :: b :: d :: cs => (a == c && b == c && d == c) || hasTriple c (b :: d :: cs)
  | _ => false

/-- Whether a character needs an escape wherever it stands: a control character other than tab and line feed. -/
def isControl (c : Char) : Bool := (c < ' ' && c != '\t' && c != '\n') || c == '\x7f'

/-- The quotes that a text may stand between. -/
inductive Quotes where
  | double
  | single
  | tripleDouble
  | tripleSingle
  deriving DecidableEq, Repr

namespace Quotes

/-- The quotes themselves. -/
def mark : Quotes → String
  | double => "\""
  | single => "'"
  | tripleDouble => "\"\"\""
  | tripleSingle => "'''"

/-- Whether a text between the quotes may have lines of its own. -/
def isTriple : Quotes → Bool
  | tripleDouble | tripleSingle => true
  | double | single => false

/-- Whether a text between the quotes may have escapes. -/
def isDouble : Quotes → Bool
  | double | tripleDouble => true
  | single | tripleSingle => false

/-- Whether a text can stand between the quotes as it is. -/
def suit (quotes : Quotes) (cs : List Char) : Bool :=
  !cs.any isControl &&
  match quotes with
  | double => !cs.contains '\n' && !cs.contains '"' && !cs.contains '\\'
  | single => !cs.contains '\n' && !cs.contains '\''
  | tripleDouble => !hasTriple '"' cs && !cs.contains '\\'
  | tripleSingle => !hasTriple '\'' cs

/-- The quotes for a text: the first of some that suit it, and else double ones. -/
def choose (candidates : List Quotes) (cs : List Char) : Quotes :=
  (candidates.find? (·.suit cs)).getD (if cs.contains '\n' then tripleDouble else double)

end Quotes

/-- A hexadecimal digit in capitals. -/
def capitalHex (value : Nat) : Char := (Json.hexChar value).toUpper

/-- A character other than a double quote between double quotes; between triples a line feed stands for itself. -/
def escapeChar (isTriple : Bool) (c : Char) : List Char :=
  match c with
  | '\x08' => ['\\', 'b']
  | '\t' => ['\\', 't']
  | '\n' => if isTriple then ['\n'] else ['\\', 'n']
  | '\x0c' => ['\\', 'f']
  | '\r' => ['\\', 'r']
  | '\\' => ['\\', '\\']
  | c =>
    if isControl c then ['\\', 'u', '0', '0', capitalHex (c.toNat / 16), capitalHex (c.toNat % 16)] else [c]

/-- A text between double quotes, behind `run` of them in a row. Between triples, two may stand in a row without an
escape. -/
def escape (isTriple : Bool) : (run : Nat) → List Char → List Char
  | _, [] => []
  | run, c :: cs =>
    if c = '"' then
      if isTriple && run < 2 then '"' :: escape isTriple (run + 1) cs
      else '\\' :: '"' :: escape isTriple 0 cs
    else escapeChar isTriple c ++ escape isTriple 0 cs

/-- A text between quotes; where it has lines of its own, the first of them begins below the quotes. -/
def between (quotes : Quotes) (cs : List Char) : String :=
  let front := if quotes.isTriple && cs.contains '\n' then "\n" else ""
  let inside := if quotes.isDouble then escape quotes.isTriple 0 cs else cs
  quotes.mark ++ front ++ String.ofList inside ++ quotes.mark

/-- A quoted text. -/
def text (s : String) : String :=
  between (.choose [.double, .single, .tripleDouble, .tripleSingle] s.toList) s.toList

/-- The characters of keys without quotes. -/
def isBare (c : Char) : Bool := c.isAlphanum || c == '-' || c == '_'

/-- A key, on one line and with quotes where it needs some. -/
def key (s : String) : String :=
  let cs := s.toList
  if !cs.isEmpty && cs.all isBare then s
  else between (([Quotes.double, .single].find? (·.suit cs)).getD .double) cs

end Quoted

/-! ### Values inside others -/

namespace Value

mutual

/-- The text of a value inside another. -/
def text : Value → String
  | str value => Quoted.text value
  | int value => toString value
  | real value => value.text
  | bool value => if value then "true" else "false"
  | moment value => value.text
  | arr items => "[" ++ ", ".intercalate (itemTexts items) ++ "]"
  | table [] => "\x7b\x7d"
  | table fields => "\x7b " ++ ", ".intercalate (fieldTexts fields) ++ " \x7d"

/-- The texts of the items of an array. -/
def itemTexts : List Value → List String
  | [] => []
  | item :: items => item.text :: itemTexts items

/-- The texts of the fields of a table, in order. -/
def fieldTexts : List (String × Value) → List String
  | [] => []
  | (key, value) :: fields => s!"{Quoted.key key} = {value.text}" :: fieldTexts fields

end

/-- The key of a table that stands for a moment. -/
def momentKey : String := "$__toml_private_datetime"

/-- The text of a value by itself: that of a string has no quotes, and a moment is written as a table. -/
def plainText : Value → String
  | str value => value
  | moment value => (table [(momentKey, str value.text)]).text
  | value => value.text

end Value

end RouteDepot.Toml
