/-! # Binary floating point numbers

Numbers of the format binary64, with exact arithmetic: a magnitude is a natural significand below `2 ^ 53` times
a power of two. A decimal number stands for the nearest of them, and for the even one of two that are equally
near.
-/

namespace RouteDepot

/-- A number of the format binary64. -/
inductive Binary64 where
  /-- The significand times two to the power of the exponent. -/
  | finite (negative : Bool) (significand : Nat) (exponent : Int)
  | infinite (negative : Bool)
  | notANumber
  deriving DecidableEq, Repr

namespace Binary64

/-- The bits of a significand. -/
def precision : Nat := 53

/-- The smallest significand whose highest bit is set. -/
def normalBound : Nat := Nat.pow 2 (precision - 1)

/-- The exponent of the smallest numbers. -/
def minExponent : Int := -1074

/-- The exponent of the largest numbers. -/
def maxExponent : Int := 971

/-- The natural number nearest to a quotient, and the even one of two. -/
def roundQuotient (num den : Nat) : Nat :=
  let quotient := num / den
  let twice := 2 * (num % den)
  if twice < den then quotient
  else if den < twice then quotient + 1
  else if quotient % 2 = 0 then quotient
  else quotient + 1

/-- A quotient times a power of a base, as a quotient. -/
def scale (num den base : Nat) (power : Int) : Nat × Nat :=
  if 0 ≤ power then (num * Nat.pow base power.toNat, den) else (num, den * Nat.pow base (-power).toNat)

/-- The exponent of the largest power of two that is no larger than a positive quotient. -/
def floorLog2 (num den : Nat) : Int :=
  let estimate := (Nat.log2 num : Int) - Nat.log2 den
  let (n, d) := scale num den 2 (-estimate)
  if n < d then estimate - 1 else estimate

/-- The number nearest to a quotient. -/
def ofQuotient (negative : Bool) (num den : Nat) : Binary64 :=
  if num = 0 then .finite negative 0 minExponent
  else
    let exponent := max (floorLog2 num den - (precision - 1)) minExponent
    let (n, d) := scale num den 2 (-exponent)
    let rounded := roundQuotient n d
    let (significand, exponent) :=
      if rounded = 2 * normalBound then (normalBound, exponent + 1) else (rounded, exponent)
    if maxExponent < exponent then .infinite negative else .finite negative significand exponent

/-- No number is as large as ten to this power. -/
def decimalRange : Int := 310

/-- The number nearest to a natural number times a power of ten. -/
def ofDecimal (negative : Bool) (digits : Nat) (power : Int) : Binary64 :=
  let magnitude := (toString digits).length + power
  if digits = 0 ∨ magnitude < -decimalRange - 20 then .finite negative 0 minExponent
  else if decimalRange < magnitude then .infinite negative
  else
    let (num, den) := scale digits 1 10 power
    ofQuotient negative num den

end Binary64

end RouteDepot
