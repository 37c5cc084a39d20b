import RouteDepot.Toml.Value

/-! # Scalars of a configuration text

Strings between quotes, numbers, truth values, dates and times. A string between three quotes may have lines of
its own; one between single quotes has no escapes.
-/

namespace RouteDepot.Toml

namespace Scalar

open Text Text.Reader Spacing

/-! ### Strings -/

/-- The characters that a backslash and one letter stand for. -/
def shortEscape? : Char → Option Char
  | 'b' => some '\x08'
  | 't' => some '\t'
  | 'n' => some '\n'
  | 'f' => some '\x0c'
  | 'r' => some '\r'
  | '"' => some '"'
  | '\\' => some '\\'
  | _ => none

/-- The character of a code point in a fixed count of hexadecimal digits at the front of a text. -/
def codePoint? (digits : Nat) (cs : List Char) : Option Char :=
  match (cs.take digits).mapM Text.hexDigit? with
  | some values => if values.length = digits then Text.character? (Text.ofDigits 16 values) else none
  | none => none

/-- Takes what is behind a backslash. -/
def escape : Reader Char := do
  match ← character with
  | 'u' => codePoint 4
  | 'U' => codePoint 8
  | c => StateT.lift (shortEscape? c)
where
  /-- Takes a code point. -/
  codePoint (digits : Nat) : Reader Char := fun cs =>
    (codePoint? digits cs).map fun c => (c, cs.drop digits)

/-- A piece of a string between double quotes, and whether there is another piece behind it. -/
def basicPiece : Reader (List Char × Bool) := do
  match ← character with
  | '"' => return ([], false)
  | '\\' => return ([← escape], true)
  | c => if isPlain c then return ([c], true) else failure

/-- Takes the inside of a string on one line, and the double quote at its end. -/
def basicInside : Reader (List Char) := many basicPiece

/-- Takes the inside of a string without escapes on one line, and the single quote at its end. -/
def rawInside : Reader (List Char) := do
  let inside ← takeWhile fun c => isPlain c && c != '\''
  expect '\''
  return inside

/-- What is behind blanks and line ends. -/
def behindGap : List Char → List Char
  | '\r' :: '\n' :: cs => behindGap cs
  | c :: cs => if isSpace c || c == '\n' then behindGap cs else c :: cs
  | [] => []

/-- What is behind a gap that begins with blanks and a line end, if there is one. -/
def behindEscapedLineEnd? (cs : List Char) : Option (List Char) :=
  (behindLineEnd? (cs.dropWhile isSpace)).map behindGap

/-- Takes a run of quotes: fewer than three stand for themselves, and three end the string, with up to two more
of the string itself in front of them. -/
def quoteRun (quote : Char) : Reader (List Char × Bool) := do
  let run := ((← get).takeWhile (· == quote)).length
  if run < 3 then
    modify (·.drop run)
    return (List.replicate run quote, true)
  else
    let kept := min run 5 - 3
    modify (·.drop (kept + 3))
    return (List.replicate kept quote, false)

/-- A piece of a string between three quotes, and whether there is another piece behind it. -/
def linesPiece (quote : Char) (hasEscapes : Bool) : Reader (List Char × Bool) := do
  match ← get with
  | [] => failure
  | c :: cs =>
    if c = quote then quoteRun quote
    else if hasEscapes && c == '\\' then
      match behindEscapedLineEnd? cs with
      | some rest => set rest; return ([], true)
      | none => set cs; return ([← escape], true)
    else match behindLineEnd? (c :: cs) with
      | some rest => set rest; return (['\n'], true)
      | none => if isPlain c then set cs; return ([c], true) else failure

/-- Takes the inside of a string between three quotes; a line end at its beginning does not count. -/
def linesInside (quote : Char) (hasEscapes : Bool) : Reader (List Char) := do
  modify fun cs => (behindLineEnd? cs).getD cs
  many (linesPiece quote hasEscapes)

/-- Takes a string on one line between quotes of a kind, behind its first quote. -/
def lineInside (quote : Char) : Reader (List Char) := if quote = '"' then basicInside else rawInside

/-- Takes a string behind its first quote. -/
def stringInside (quote : Char) : Reader String := do
  match ← get with
  | a :: b :: cs =>
    if a = quote ∧ b = quote then
      set cs
      return String.ofList (← linesInside quote (quote == '"'))
    else return String.ofList (← lineInside quote)
  | _ => return String.ofList (← lineInside quote)

/-! ### Numbers -/

/-- The digits at the front of a text; between two digits there may be an underscore. -/
def moreDigits (isDigit : Char → Bool) : List Char → Option (List Char × List Char)
  | [] => some ([], [])
  | ['_'] => none
  | '_' :: c :: cs =>
    if isDigit c then (moreDigits isDigit cs).map fun (digits, rest) => (c :: digits, rest) else none
  | c :: cs =>
    if isDigit c then (moreDigits isDigit cs).map fun (digits, rest) => (c :: digits, rest)
    else some ([], c :: cs)

/-- Takes one digit or more. -/
def someDigits (isDigit : Char → Bool) : Reader (List Char) := do
  let first ← character
  if isDigit first then return first :: (← moreDigits isDigit) else failure

/-- Takes the digits in front of a point; a zero stands alone. -/
def wholeDigits : Reader (List Char) := do
  if ← accept '0' then return ['0'] else someDigits Char.isDigit

/-- Takes a sign, if there is one, and says whether the number is negative. -/
def sign : Reader Bool := do
  if ← accept '-' then return true
  let _ ← accept '+'
  return false

/-- Two to the power of 63: integers lie below it, and not below its negative. -/
def integerBound : Int := 0x8000000000000000

/-- An integer of 64 bits. -/
def integer? (negative : Bool) (magnitude : Nat) : Option Value :=
  let value : Int := if negative then -magnitude else magnitude
  if -integerBound ≤ value ∧ value < integerBound then some (.int value) else none

/-- Takes an integer in the digits of a base. -/
def baseInteger (base : Nat) : Reader Value := do
  let isDigit (c : Char) : Bool := (Text.hexDigit? c).any (· < base)
  let digits ← someDigits isDigit
  StateT.lift (integer? false (Text.ofDigits base (digits.filterMap Text.hexDigit?)))

/-- Takes the exponent of a decimal number behind its mark. -/
def exponent : Reader Int := do
  let negative ← sign
  let value : Int := Moment.decimal (← someDigits Char.isDigit)
  return if negative then -value else value

/-- Takes the mark of an exponent and the exponent, if there is one. -/
def optionalExponent : Reader (Option Int) := do
  if ← acceptEither 'e' 'E' then return some (← exponent) else return none

/-- A decimal number as a value; one that is too large is refused, unless it is negative. -/
def real? (negative : Bool) (digits : List Char) (power : Int) : Option Value :=
  match Binary64.ofDecimal negative (Moment.decimal digits) power with
  | .infinite false => none
  | value => some (.real value)

/-- Takes an integer or a decimal number, or one of the words for what is no finite number. -/
def number : Reader Value := do
  let negative ← sign
  match ← get with
  | 'i' :: _ => expectAll "inf"; return .real (.infinite negative)
  | 'n' :: _ => expectAll "nan"; return .real .notANumber
  | _ =>
    let whole ← wholeDigits
    let fraction ← if ← accept '.' then some <$> someDigits Char.isDigit else pure none
    match fraction, ← optionalExponent with
    | none, none => StateT.lift (integer? negative (Moment.decimal whole))
    | places, power =>
      let places := places.getD []
      StateT.lift (real? negative (whole ++ places) (power.getD 0 - places.length))

/-! ### All scalars -/

/-- Takes a scalar. -/
def read : Reader Value := do
  match ← get with
  | '"' :: cs => set cs; return .str (← stringInside '"')
  | '\'' :: cs => set cs; return .str (← stringInside '\'')
  | 't' :: _ => expectAll "true"; return .bool true
  | 'f' :: _ => expectAll "false"; return .bool false
  | '0' :: 'x' :: cs => set cs; baseInteger 16
  | '0' :: 'o' :: cs => set cs; baseInteger 8
  | '0' :: 'b' :: cs => set cs; baseInteger 2
  | cs =>
    if Moment.beginsLikeDate cs || Moment.beginsLikeTime cs then return .moment (← Moment.read)
    else number

end Scalar

end RouteDepot.Toml
