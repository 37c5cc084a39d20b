import RouteDepot.Binary64

/-! # The shortest decimal text of a binary number

Every decimal number near enough to a binary one stands for it. Written is the one with the fewest digits, and the
nearest of those; positions are written out, so there is never an exponent.
-/

namespace RouteDepot.Binary64

/-- The decimal numbers that stand for a binary one: those between two bounds, in some unit. -/
structure Interval where
  low : Nat
  value : Nat
  high : Nat
  /-- Whether the bounds themselves stand for the number. -/
  closed : Bool

/-- The interval of a positive number, in quarters of its last place: below a power of two the numbers lie
closer. -/
def interval (significand : Nat) (exponent : Int) : Interval :=
  let isLowest := significand = normalBound ∧ minExponent < exponent
  { low := 4 * significand - (if isLowest then 1 else 2)
    value := 4 * significand
    high := 4 * significand + 2
    closed := significand % 2 = 0 }

/-- Whether a multiple lies in the interval; the unit of the interval and the step of the multiple are natural. -/
def Interval.covers (i : Interval) (unit step multiple : Nat) : Bool :=
  let point := multiple * step
  let low := i.low * unit
  let high := i.high * unit
  if i.closed then low ≤ point && point ≤ high else low < point && point < high

/-- The multiple of a power of ten that stands for the number, the nearer one of two. -/
def onGrid? (i : Interval) (exponent : Int) (power : Int) : Option (Nat × Int) :=
  let (unit, den) := scale 1 1 2 (exponent - 2)
  let (step, stepDen) := scale 1 1 10 power
  let unit := unit * stepDen
  let step := step * den
  let below := i.value * unit / step
  let isNearAbove := step ≤ 2 * (i.value * unit % step)
  let hasBelow := 0 < below && i.covers unit step below
  let hasAbove := i.covers unit step (below + 1)
  if hasAbove && (isNearAbove || !hasBelow) then some (below + 1, power)
  else if hasBelow then some (below, power)
  else none

/-- The digits and the power of ten of the shortest decimal number for a positive one. -/
def shortest (significand : Nat) (exponent : Int) : Nat × Int :=
  let i := interval significand exponent
  let powers := (List.range 650).map fun k : Nat => decimalRange - k
  (powers.findSome? (onGrid? i exponent)).getD (0, 0)

/-- Digits times a power of ten with all positions written out, and with at least one place behind the point. -/
def positional (digits : Nat) (power : Int) : String :=
  let text := toString digits
  if 0 ≤ power then text ++ "".pushn '0' power.toNat ++ ".0"
  else
    let places := (-power).toNat
    let padded := ("".pushn '0' (places + 1 - text.length) ++ text).toList
    let whole := padded.length - places
    String.ofList (padded.take whole) ++ "." ++ String.ofList (padded.drop whole)

/-- The text of a number; the sign of what is no number is not written. -/
def text : Binary64 → String
  | .notANumber => "nan"
  | .infinite negative => (if negative then "-" else "") ++ "inf"
  | .finite negative significand exponent =>
    let (digits, power) := if significand = 0 then (0, 0) else shortest significand exponent
    (if negative then "-" else "") ++ positional digits power

end RouteDepot.Binary64
