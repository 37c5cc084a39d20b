/-! # Sets of code points as ranges

A Unicode property is stored as its inclusive ranges in ascending order.
-/

namespace RouteDepot.Text

/-- Whether a code point lies in one of the ranges, which are in ascending order. -/
def rangesContain : List (Nat × Nat) → Nat → Bool
  | [], _ => false
  | (first, last) :: later, code => first ≤ code && (code ≤ last || rangesContain later code)

/-- Whether a character lies in one of the ranges, which are in ascending order. -/
def inRanges (ranges : List (Nat × Nat)) (c : Char) : Bool := rangesContain ranges c.toNat

theorem exists_mem_of_rangesContain {ranges : List (Nat × Nat)} {code : Nat}
    (inside : rangesContain ranges code = true) :
    ∃ range ∈ ranges, range.1 ≤ code ∧ code ≤ range.2 := by
  induction ranges with
  | nil => simp [rangesContain] at inside
  | cons range later ih =>
    obtain ⟨first, last⟩ := range
    simp only [rangesContain, Bool.and_eq_true, decide_eq_true_eq, Bool.or_eq_true] at inside
    rcases inside with ⟨above, below | inLater⟩
    · exact ⟨_, List.mem_cons_self .., above, below⟩
    · obtain ⟨found, member, bounds⟩ := ih inLater
      exact ⟨found, List.mem_cons_of_mem _ member, bounds⟩

end RouteDepot.Text
