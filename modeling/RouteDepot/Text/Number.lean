/-! # Decimal numbers with a limit

Reading an unsigned decimal number that must stay below a limit. The characters are looked at from left to
right: the first one that is no digit, or the first one that takes the number to the limit, decides what is
wrong.
-/

namespace RouteDepot.Text

/-- Why a text is no number below the limit. -/
inductive NumberFault where
  | empty | invalidDigit | tooLarge
  deriving DecidableEq, Repr

/-- Continues a number with further digits. -/
def continueNumber (limit value : Nat) : List Char → Except NumberFault Nat
  | [] => .ok value
  | c :: cs =>
    if c.isDigit then
      let next := 10 * value + (c.toNat - '0'.toNat)
      if next < limit then continueNumber limit next cs else .error .tooLarge
    else .error .invalidDigit

/-- The number that a text spells in decimal digits, perhaps behind a plus sign. -/
def numberBelow (limit : Nat) (cs : List Char) : Except NumberFault Nat :=
  match cs with
  | [] => .error .empty
  | ['+'] => .error .invalidDigit
  | '+' :: digits => continueNumber limit 0 digits
  | digits => continueNumber limit 0 digits

theorem continueNumber_lt {limit value n : Nat} {cs : List Char} (below : value < limit)
    (read : continueNumber limit value cs = .ok n) : n < limit := by
  induction cs generalizing value with
  | nil => obtain rfl := Except.ok.inj read; exact below
  | cons c cs ih =>
    simp only [continueNumber] at read
    split at read
    · split at read
      · rename_i next
        exact ih next read
      · simp at read
    · simp at read

theorem numberBelow_lt {limit n : Nat} {cs : List Char} (positive : 0 < limit)
    (read : numberBelow limit cs = .ok n) : n < limit := by
  unfold numberBelow at read
  split at read
  · simp at read
  · simp at read
  · exact continueNumber_lt positive read
  · exact continueNumber_lt positive read

end RouteDepot.Text
