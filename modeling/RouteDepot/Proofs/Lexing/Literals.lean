import RouteDepot.Proofs.Lexing.Characters

/-! # Reading literals

A literal is read back from every text that stands for it, and what follows it is left alone.
-/

namespace RouteDepot.RouteClass.Scan

/-! ### Escapes -/

theorem shortEscape?_of_mem {letter c : Char} (listed : (letter, c) ∈ shortEscapes) :
    letter ≠ 'u' ∧ shortEscape? letter = some c := by
  have all : ∀ entry ∈ shortEscapes, entry.1 ≠ 'u' ∧ shortEscape? entry.1 = some entry.2 := by decide
  exact all (letter, c) listed

theorem hexDigit?_of_spells {value : Nat} {digit : Char} (spells : SpellsHexDigit value digit) :
    Text.hexDigit? digit = some value := by
  have all : ∀ value < 16, Text.hexDigit? value.digitChar = some value ∧
      Text.hexDigit? value.digitChar.toUpper = some value := by decide
  obtain ⟨small, rfl | rfl⟩ := spells
  · exact (all value small).1
  · exact (all value small).2

theorem escape_reads {c : Char} {text : List Char} (spells : SpellsEscape c text) (start offset : Nat)
    (rest : List Char) : ∃ stop, escape start offset (text ++ rest) = ⟨some c, stop, rest, []⟩ := by
  cases spells with
  | @short letter _ listed =>
    obtain ⟨notUnicode, stands⟩ := shortEscape?_of_mem listed
    refine ⟨offset + 1, ?_⟩
    rw [List.singleton_append, escape]
    · simp only [stands]
    · exact notUnicode
  | @unicode _ first second third last a b d e highest high low lowest code =>
    have digits : hexRun (first :: second :: third :: last :: rest) = [a, b, d, e] := by
      simp [hexRun, hexDigit?_of_spells highest, hexDigit?_of_spells high, hexDigit?_of_spells low,
        hexDigit?_of_spells lowest]
    have value : Text.ofDigits 16 [a, b, d, e] = c.toNat := by
      simp only [Text.ofDigits, List.foldl_cons, List.foldl_nil, code]
      omega
    have character : hexCharacter? [a, b, d, e] = some c := by
      have valid : c.toNat.isValidChar := c.valid
      rw [hexCharacter?, value, Text.character?, if_pos valid, Char.ofNat_toNat]
      rfl
    refine ⟨offset + 1 + 4, ?_⟩
    simp only [List.cons_append, List.nil_append, escape, digits, character]
    rfl

/-! ### Strings and characters -/

theorem string_reads {value : List Char} {parts : List (List Char)}
    (spells : List.Forall₂ (SpellsCharacter '"') value parts) (start offset : Nat) (rest : List Char) :
    ∃ stop, string start offset (parts.flatten ++ '"' :: rest) = ⟨value, stop, rest, []⟩ := by
  induction spells generalizing offset with
  | nil =>
    refine ⟨offset + 1, ?_⟩
    rw [List.flatten_nil, List.nil_append, string]
  | @cons c part value parts first _ ih =>
    rw [List.flatten_cons, List.append_assoc]
    cases first with
    | raw notQuote notBackslash notLineEnd =>
      obtain ⟨stop, read⟩ := ih (offset + c.utf8Size)
      refine ⟨stop, ?_⟩
      rw [List.singleton_append, string]
      · rw [read]
      · exact notQuote
      · exact notLineEnd
      · exact notBackslash
    | escaped escaped =>
      obtain ⟨next, stands⟩ := escape_reads escaped offset (offset + 1) (parts.flatten ++ '"' :: rest)
      obtain ⟨stop, read⟩ := ih next
      refine ⟨stop, ?_⟩
      rw [List.cons_append, string]
      simp only [stands, read]
      rfl

theorem character_reads {c : Char} {text : List Char} (spells : SpellsCharacter '\'' c text) (start offset : Nat)
    (rest : List Char) : ∃ stop, character start offset (text ++ '\'' :: rest) = ⟨c, stop, rest, []⟩ := by
  cases spells with
  | raw notQuote notBackslash notLineEnd =>
    refine ⟨offset + c.utf8Size + 1, ?_⟩
    rw [List.singleton_append, character]
    · rfl
    · exact notQuote
    · exact notLineEnd
    · exact notBackslash
  | escaped escaped =>
    obtain ⟨stop, stands⟩ := escape_reads escaped start (offset + 1) ('\'' :: rest)
    refine ⟨stop + 1, ?_⟩
    rw [List.cons_append, character]
    simp only [stands]
    rfl

/-! ### Numbers -/

theorem isDigit_of_mem_filter {n : Nat} {text : List Char} (spells : SpellsDigits n text) {c : Char}
    (member : c ∈ text) (digit : c ≠ '_') : c.isDigit := by
  obtain ⟨_, zeros, spelled⟩ := spells
  have kept : c ∈ text.filter (· != '_') := List.mem_filter.mpr ⟨member, by simpa using digit⟩
  rw [spelled, List.mem_append, List.mem_replicate] at kept
  rcases kept with ⟨_, rfl⟩ | kept
  · rfl
  · exact Nat.isDigit_of_mem_toDigits (by decide) (by decide) kept

theorem isNumberPart_of_mem {n : Nat} {text : List Char} (spells : SpellsDigits n text) {c : Char}
    (member : c ∈ text) : isNumberPart c := by
  by_cases digit : c = '_'
  · simp [isNumberPart, digit]
  · simp [isNumberPart, isDigit_of_mem_filter spells member digit]

/-- Zeros in front of a number do not count. -/
theorem ofDigitChars_zeros (zeros : Nat) (digits : List Char) :
    Nat.ofDigitChars 10 (List.replicate zeros '0' ++ digits) 0 = Nat.ofDigitChars 10 digits 0 := by
  induction zeros with
  | zero => rfl
  | succ zeros ih =>
    rw [List.replicate_succ]
    exact ih

theorem decimalValue_of_spells {n : Nat} {text : List Char} (spells : SpellsDigits n text) :
    decimalValue text = n := by
  obtain ⟨_, zeros, spelled⟩ := spells
  have same : decimalValue text = Nat.ofDigitChars 10 (text.filter (· != '_')) 0 := rfl
  rw [same, spelled, ofDigitChars_zeros, Nat.ofDigitChars_toDigits (by decide) (by decide)]

theorem eq_cons_of_spells {n : Nat} {text : List Char} (spells : SpellsDigits n text) :
    ∃ first body, text = first :: body ∧ first.isDigit := by
  cases text with
  | nil =>
    obtain ⟨_, zeros, spelled⟩ := spells
    have none : Nat.toDigits 10 n = [] := (List.append_eq_nil_iff.mp spelled.symm).2
    exact absurd none Nat.toDigits_ne_nil
  | cons first body =>
    have digit : first ≠ '_' := by simpa using spells.1
    exact ⟨first, body, rfl, isDigit_of_mem_filter spells List.mem_cons_self digit⟩

theorem number_reads {n : Nat} {first : Char} {body suffix rest : List Char} (spells : SpellsDigits n (first :: body))
    (small : n < integerLimit) (marked : suffix ∈ [[], ['l'], ['L']]) (ends : EndsToken rest) (start : Nat) :
    ∃ stop, number start first (body ++ suffix ++ rest) = ⟨n, stop, rest, []⟩ := by
  have parts : ∀ c ∈ body, isNumberPart c := fun c member => isNumberPart_of_mem spells (List.mem_cons_of_mem _ member)
  have stops : ∀ c ∈ (suffix ++ rest).head?, isNumberPart c = false := by
    simp only [List.mem_cons, List.not_mem_nil, or_false] at marked
    rcases marked with rfl | rfl | rfl
    · exact fun c begins => isNumberPart_eq_false (ends c begins)
    all_goals
      rintro c begins
      obtain rfl := Option.some.inj begins
      decide
  obtain ⟨taken, left⟩ := takeWhile_append_of_stops parts stops
  rw [List.append_assoc]
  simp only [number, taken, left, decimalValue_of_spells spells, small, if_true]
  simp only [List.mem_cons, List.not_mem_nil, or_false] at marked
  rcases marked with rfl | rfl | rfl
  · rw [List.nil_append]
    split
    · exact absurd (by decide) ends.not_beginsToken
    · exact absurd (by decide +kernel) ends.not_beginsToken
    · exact absurd (by decide +kernel) ends.not_beginsToken
    · exact ⟨_, rfl⟩
  · exact ⟨_, rfl⟩
  · exact ⟨_, rfl⟩

end RouteDepot.RouteClass.Scan
