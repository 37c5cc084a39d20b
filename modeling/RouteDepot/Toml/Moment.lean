import RouteDepot.Text.Hex
import RouteDepot.Toml.Spacing

/-! # Dates and times

A date, a time of day, or both with perhaps the distance to universal time. Fractions of a second count up to nine
places.
-/

namespace RouteDepot.Toml

/-- A day of the calendar. -/
structure Date where
  year : Nat
  month : Nat
  day : Nat
  deriving DecidableEq, Repr

/-- A time of day. -/
structure Time where
  hour : Nat
  minute : Nat
  second : Nat
  nanosecond : Nat
  deriving DecidableEq, Repr

/-- The distance to universal time. -/
inductive Zone where
  | universal
  /-- The minutes that local time is ahead. -/
  | ahead (minutes : Int)
  deriving DecidableEq, Repr

/-- A date, a time of day, or both. -/
inductive Moment where
  | date (date : Date)
  | time (time : Time)
  | dateTime (date : Date) (time : Time) (zone : Option Zone)
  deriving DecidableEq, Repr

/-! ### Texts -/

/-- A number with zeros in front up to some width. -/
def padded (width n : Nat) : String := "".pushn '0' (width - (toString n).length) ++ toString n

/-- Year, month and day. -/
def Date.text (d : Date) : String := s!"{padded 4 d.year}-{padded 2 d.month}-{padded 2 d.day}"

/-- The fraction of a second behind a point, without zeros at its end; nothing for a whole second. -/
def fractionText (nanosecond : Nat) : String :=
  if nanosecond = 0 then ""
  else "." ++ String.ofList ((padded 9 nanosecond).toList.reverse.dropWhile (· == '0')).reverse

/-- Hour, minute and second. -/
def Time.text (t : Time) : String :=
  s!"{padded 2 t.hour}:{padded 2 t.minute}:{padded 2 t.second}{fractionText t.nanosecond}"

/-- Hours and minutes behind a sign, or the letter of universal time. -/
def Zone.text : Zone → String
  | .universal => "Z"
  | .ahead minutes =>
    let sign := if minutes < 0 then "-" else "+"
    s!"{sign}{padded 2 (minutes.natAbs / 60)}:{padded 2 (minutes.natAbs % 60)}"

/-- The text of a moment. -/
def Moment.text : Moment → String
  | .date d => d.text
  | .time t => t.text
  | .dateTime d t zone => d.text ++ "T" ++ t.text ++ (zone.map Zone.text).getD ""

/-! ### Reading -/

namespace Moment

open Text Text.Reader Spacing

/-- Whether a text begins with so many decimal digits and then a given character. -/
def beginsWith (digits : Nat) (next : Char) (cs : List Char) : Bool :=
  (cs.take digits).all Char.isDigit && (cs.take digits).length == digits && cs[digits]? == some next

/-- Whether a text begins like a date. -/
def beginsLikeDate (cs : List Char) : Bool := beginsWith 4 '-' cs

/-- Whether a text begins like a time of day. -/
def beginsLikeTime (cs : List Char) : Bool := beginsWith 2 ':' cs

/-- The value of decimal digits. -/
def decimal (digits : List Char) : Nat := Text.ofDigits 10 (digits.map fun c => c.toNat - '0'.toNat)

/-- Takes a number of a fixed count of digits within bounds. -/
def bounded (digits low high : Nat) : Reader Nat := fun cs =>
  let front := cs.take digits
  let value := decimal front
  if front.length = digits ∧ front.all Char.isDigit ∧ low ≤ value ∧ value ≤ high then some (value, cs.drop digits)
  else none

/-- The days of a month. -/
def daysOf (year month : Nat) : Nat :=
  if month = 2 then (if year % 4 = 0 ∧ (year % 100 ≠ 0 ∨ year % 400 = 0) then 29 else 28)
  else if month = 4 ∨ month = 6 ∨ month = 9 ∨ month = 11 then 30
  else 31

/-- Takes a date. -/
def readDate : Reader Date := do
  let year ← bounded 4 0 9999
  expect '-'
  let month ← bounded 2 1 12
  expect '-'
  let day ← bounded 2 1 (daysOf year month)
  return ⟨year, month, day⟩

/-- Takes the fraction of a second, if there is one; digits behind the ninth do not count. -/
def readFraction : Reader Nat := do
  if ← accept '.' then
    let digits ← takeWhile Char.isDigit
    if digits.isEmpty then failure
    let kept := digits.take 9
    return decimal kept * Nat.pow 10 (9 - kept.length)
  else return 0

/-- Takes a time of day; there is a leap second. -/
def readTime : Reader Time := do
  let hour ← bounded 2 0 23
  expect ':'
  let minute ← bounded 2 0 59
  expect ':'
  let second ← bounded 2 0 60
  return ⟨hour, minute, second, ← readFraction⟩

/-- Takes hours and minutes as minutes. -/
def readMinutes : Reader Nat := do
  let hours ← bounded 2 0 23
  expect ':'
  return 60 * hours + (← bounded 2 0 59)

/-- Takes the distance to universal time, if there is one. -/
def readZone : Reader (Option Zone) := do
  if ← acceptEither 'Z' 'z' then return some .universal
  else if ← accept '+' then return some (.ahead (← readMinutes))
  else if ← accept '-' then return some (.ahead (-(← readMinutes)))
  else return none

/-- Whether a text begins with what separates a date from a time, and the time behind it. -/
def timeFollows : List Char → Bool
  | c :: cs => (c == 'T' || c == 't' || c == ' ') && beginsLikeTime cs
  | [] => false

/-- Takes a moment that a text begins like. -/
def read : Reader Moment := do
  if beginsLikeDate (← get) then
    let date ← readDate
    if timeFollows (← get) then
      let _ ← character
      let time ← readTime
      return .dateTime date time (← readZone)
    else return .date date
  else return .time (← readTime)

/-- The moment that a whole text spells. -/
def ofText? (text : String) : Option Moment :=
  match read.run text.toList with
  | some (moment, []) => some moment
  | _ => none

end Moment

end RouteDepot.Toml
