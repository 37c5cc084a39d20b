/-! # Hexadecimal digits -/

namespace RouteDepot.Text

/-- The value of a hexadecimal digit. -/
def hexDigit? (c : Char) : Option Nat :=
  if '0' ≤ c ∧ c ≤ '9' then some (c.toNat - '0'.toNat)
  else if 'a' ≤ c ∧ c ≤ 'f' then some (c.toNat - 'a'.toNat + 10)
  else if 'A' ≤ c ∧ c ≤ 'F' then some (c.toNat - 'A'.toNat + 10)
  else none

/-- The number that digits spell in a base, from its highest place on. -/
def ofDigits (base : Nat) (digits : List Nat) : Nat := digits.foldl (fun value digit => base * value + digit) 0

/-- The character of a code point; surrogates are no characters. -/
def character? (code : Nat) : Option Char := if code.isValidChar then some (Char.ofNat code) else none

end RouteDepot.Text
