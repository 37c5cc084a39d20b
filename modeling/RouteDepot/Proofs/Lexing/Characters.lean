import RouteDepot.Proofs.Lexing.Spelling
import RouteDepot.Proofs.Trimming

/-! # Classes of characters

A token is told from its first character, and a word or a number ends before a blank or a slash. Both rest on classes
of characters that have nothing in common.
-/

namespace RouteDepot

namespace Text

/-- No blank is a letter or a number sign. -/
theorem rangesContain_blank : ∀ range ∈ blankRanges, ∀ code ∈ List.range' range.1 (range.2 + 1 - range.1),
    rangesContain alphabeticRanges code = false ∧ rangesContain numericRanges code = false := by
  decide +kernel

theorem isBlank_disjoint {c : Char} (white : isBlank c) : isAlphabetic c = false ∧ isNumeric c = false := by
  obtain ⟨range, member, above, below⟩ := exists_mem_of_rangesContain white
  exact rangesContain_blank range member c.toNat (List.mem_range'_1.mpr ⟨above, by omega⟩)

/-- No decimal digit is a letter or a blank. -/
theorem rangesContain_digit : ∀ code ∈ List.range' 48 10,
    rangesContain alphabeticRanges code = false ∧ rangesContain blankRanges code = false := by
  decide +kernel

theorem isDigit_disjoint {c : Char} (digit : c.isDigit) : isAlphabetic c = false ∧ isBlank c = false := by
  obtain ⟨above, below⟩ := Char.isDigit_iff_toNat.mp digit
  exact rangesContain_digit c.toNat (List.mem_range'_1.mpr ⟨above, Nat.lt_succ_of_le below⟩)

end Text

namespace RouteClass

open Scan

/-- What may follow a token: the end of the text, a blank or a comment. -/
def EndsToken (rest : List Char) : Prop := ∀ c ∈ rest.head?, Text.isBlank c ∨ c = '/'

/-- A character that begins neither a gap nor a comment. -/
def BeginsToken (c : Char) : Prop := Text.isBlank c = false ∧ c ≠ '/'

instance (c : Char) : Decidable (BeginsToken c) := inferInstanceAs (Decidable (_ ∧ _))

theorem EndsToken.not_beginsToken {c : Char} {more : List Char} (ends : EndsToken (c :: more)) : ¬ BeginsToken c := by
  rintro ⟨dark, notSlash⟩
  rcases ends c rfl with white | slash
  · rw [dark] at white
    cases white
  · exact notSlash slash

theorem isWordPart_eq_false {c : Char} (ends : Text.isBlank c ∨ c = '/') : isWordPart c = false := by
  rcases ends with white | rfl
  · obtain ⟨noLetter, noNumber⟩ := Text.isBlank_disjoint white
    have noSign : c ≠ '_' ∧ c ≠ '$' := by
      constructor <;> rintro rfl <;> revert white <;> decide
    simp [isWordPart, noLetter, noNumber, noSign]
  · decide +kernel

theorem isNumberPart_eq_false {c : Char} (ends : Text.isBlank c ∨ c = '/') : isNumberPart c = false := by
  rcases ends with white | rfl
  · have noDigit : c.isDigit = false := by
      by_contra digit
      rw [(Text.isDigit_disjoint (eq_true_of_ne_false digit)).2] at white
      cases white
    have noUnderscore : c ≠ '_' := by
      rintro rfl
      revert white
      decide
    simp [isNumberPart, noDigit, noUnderscore]
  · decide

theorem beginsToken_of_isDigit {c : Char} (digit : c.isDigit) : BeginsToken c :=
  ⟨(Text.isDigit_disjoint digit).2, by rintro rfl; revert digit; decide⟩

theorem beginsToken_of_isWordStart {c : Char} (starts : isWordStart c) : BeginsToken c := by
  have continues : isWordPart c := by
    simp only [isWordStart, isWordPart, Bool.or_eq_true] at starts ⊢
    tauto
  have noEnd : ¬ (Text.isBlank c ∨ c = '/') := fun ends => by
    rw [isWordPart_eq_false ends] at continues
    cases continues
  exact ⟨eq_false_of_ne_true fun white => noEnd (.inl white), fun slash => noEnd (.inr slash)⟩

theorem isDigit_eq_false_of_isWordStart {c : Char} (starts : isWordStart c) : c.isDigit = false := by
  by_contra digit
  have digit : c.isDigit = true := eq_true_of_ne_false digit
  simp only [isWordStart, (Text.isDigit_disjoint digit).1, Bool.false_or, Bool.or_eq_true, beq_iff_eq] at starts
  rcases starts with rfl | rfl <;> revert digit <;> decide

/-- A mark begins no other token, and no gap. -/
theorem sign_begins (m : Mark) : BeginsToken m.sign ∧ m.sign ≠ '"' ∧ m.sign ≠ '\'' ∧ m.sign.isDigit = false ∧
    isWordStart m.sign = false := by
  cases m <;> decide +kernel

/-- A reserved word is spelled like an identifier. -/
theorem word_spelled (k : Keyword) : ∃ first later, k.word.toList = first :: later ∧ isWordStart first ∧
    ∀ c ∈ later, isWordPart c := by
  have letters : (k.word.toList.head?.any isWordStart && k.word.toList.tail.all isWordPart) = true := by
    cases k <;> decide +kernel
  rcases spelled : k.word.toList with _ | ⟨first, later⟩
  · simp [spelled] at letters
  · simpa [spelled] using letters

end RouteClass

end RouteDepot
