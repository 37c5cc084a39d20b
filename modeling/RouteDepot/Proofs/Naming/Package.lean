import RouteDepot.Proofs.Joining
import RouteDepot.Proofs.Lexing.Scanning
import RouteDepot.Proofs.Spelling.Units
import RouteDepot.QualifiedName

/-! # The two readings of a package declaration

The package of a source is read twice: from the characters at its very beginning, to name the class before anything is
compiled, and by the parser from its tokens. Characters are more lenient, as they let through digits behind a dot,
doubled dots and reserved words. Where the parser finds a unit it has found the same package.
-/

namespace RouteDepot

open RouteClass Scan

/-! ### Characters of names -/

namespace Text

theorem rangesContain_letter : ∀ code ∈ List.range' 65 26 ++ List.range' 97 26,
    rangesContain alphabeticRanges code = true := by
  decide +kernel

theorem isAlphabetic_of_isAlpha {c : Char} (letter : c.isAlpha) : isAlphabetic c := by
  refine rangesContain_letter c.toNat ?_
  change (decide (65 ≤ c.val ∧ c.val ≤ 90) || decide (97 ≤ c.val) && decide (c.val ≤ 122)) = true at letter
  simp only [Bool.or_eq_true, Bool.and_eq_true, decide_eq_true_eq, UInt32.le_iff_toNat_le] at letter
  change 65 ≤ c.toNat ∧ c.toNat ≤ 90 ∨ 97 ≤ c.toNat ∧ c.toNat ≤ 122 at letter
  rw [List.mem_append, List.mem_range'_1, List.mem_range'_1]
  omega

theorem rangesContain_digitNumber : ∀ code ∈ List.range' 48 10, rangesContain numericRanges code = true := by
  decide +kernel

theorem isNumeric_of_isDigit {c : Char} (digit : c.isDigit) : isNumeric c := by
  obtain ⟨above, below⟩ := Char.isDigit_iff_toNat.mp digit
  exact rangesContain_digitNumber c.toNat (List.mem_range'_1.mpr ⟨above, Nat.lt_succ_of_le below⟩)

end Text

namespace QualifiedName

theorem isWordStart_of_isPackageStart {c : Char} (starts : isPackageStart c) : isWordStart c := by
  rcases Bool.or_eq_true_iff.mp starts with letter | underscore
  · simp [isWordStart, Text.isAlphabetic_of_isAlpha letter]
  · simp [isWordStart, underscore]

theorem isPackagePart_of_isPackageStart {c : Char} (starts : isPackageStart c) : isPackagePart c := by
  simp only [isPackageStart, isPackagePart, Char.isAlphanum, Bool.or_eq_true] at starts ⊢
  tauto

theorem isPackagePart_cases {c : Char} (continues : isPackagePart c) : isWordStart c ∨ c.isDigit ∨ c = '.' := by
  simp only [isPackagePart, Char.isAlphanum, Bool.or_eq_true, beq_iff_eq] at continues
  rcases continues with ((letter | digit) | rfl) | rfl
  · exact .inl (isWordStart_of_isPackageStart (Bool.or_eq_true_iff.mpr (.inl letter)))
  · exact .inr (.inl digit)
  · exact .inl (isWordStart_of_isPackageStart (by decide))
  · exact .inr (.inr rfl)

/-- A part of a package name that does not go on with a word is empty or begins with a dot. -/
theorem eq_nil_or_dot {name : List Char} (inside : ∀ c ∈ name, isPackagePart c)
    (breaks : ∀ c ∈ name.head?, isWordPart c = false) : name = [] ∨ ∃ more, name = '.' :: more := by
  cases name with
  | nil => exact .inl rfl
  | cons c more =>
    have noWord : isWordPart c = false := breaks c rfl
    rcases isPackagePart_cases (inside c (List.mem_cons_self ..)) with starts | digit | rfl
    · simp only [isWordStart, isWordPart, Bool.or_eq_true, Bool.or_eq_false_iff] at starts noWord
      simp [noWord] at starts
    · simp [isWordPart, Text.isNumeric_of_isDigit digit] at noWord
    · exact .inr ⟨more, rfl⟩

/-- What a declared package stands in. -/
theorem eq_of_packageList? {content name : List Char} (found : packageList? content = some name) :
    ∃ blank behind first part rest more, content.dropWhile Text.isBlank = packageWord ++ blank :: behind ∧
      Text.isBlank blank ∧ (blank :: behind).dropWhile Text.isBlank = first :: (part ++ rest) ∧
      isPackageStart first ∧ (∀ c ∈ part, isPackagePart c) ∧ rest.dropWhile Text.isBlank = ';' :: more ∧
      name = first :: part := by
  unfold packageList? at found
  split at found
  · cases found
  next behind word =>
  split at found
  · cases found
  next first later shape =>
  split at found
  · next starts =>
    cases behind with
    | nil => cases starts
    | cons blank behind =>
    obtain ⟨separated, starts⟩ := Bool.and_eq_true_iff.mp starts
    extract_lets rest at found
    split at found
    · next closed =>
      obtain ⟨more, ended⟩ := List.head?_eq_some_iff.mp closed
      obtain rfl := Option.some.inj found
      refine ⟨blank, behind, first, later.takeWhile isPackagePart, rest, more, Text.behind?_eq_some.mp word, separated, ?_,
        starts, fun c => List.mem_takeWhile_imp, ended, rfl⟩
      rw [shape, List.takeWhile_append_dropWhile]
    · cases found
  · cases found

end QualifiedName

namespace RouteClass

/-! ### Reading characters -/

/-- What the tokens say that were read. -/
def Lexed.kinds (l : Lexed) : List TokenKind := l.tokens.map (·.kind)

namespace Lexed

variable {first : Char}

theorem ofChars_dropWhile_isBlank (offset : Nat) (cs : List Char) :
    ∃ behind, ofChars offset cs = ofChars behind (cs.dropWhile Text.isBlank) := by
  induction cs generalizing offset with
  | nil => exact ⟨offset, rfl⟩
  | cons c cs ih =>
    by_cases white : Text.isBlank c
    · obtain ⟨behind, same⟩ := ih (offset + c.utf8Size)
      refine ⟨behind, ?_⟩
      rw [List.dropWhile_cons_of_pos white, ← same, ofChars, if_pos white]
    · exact ⟨offset, by rw [List.dropWhile_cons_of_neg white]⟩

theorem kinds_of_begins (begins : BeginsToken first) (offset : Nat) (cs : List Char) :
    (ofChars offset (first :: cs)).kinds = (token offset first cs).value.toList ++
      (ofChars (token offset first cs).offset (token offset first cs).rest).kinds := by
  obtain ⟨dark, notSlash⟩ := begins
  rw [kinds, ofChars]
  simp [dark, notSlash, kinds, Function.comp_def]

theorem kinds_word (starts : isWordStart first) (offset : Nat) (cs : List Char) :
    ∃ stop, (ofChars offset (first :: cs)).kinds =
      wordKind (String.ofList (first :: cs.takeWhile isWordPart)) :: (ofChars stop (cs.dropWhile isWordPart)).kinds := by
  have notQuote : first ≠ '"' ∧ first ≠ '\'' := by
    constructor <;> rintro rfl <;> revert starts <;> decide +kernel
  have notDigit : first.isDigit = false := isDigit_eq_false_of_isWordStart starts
  refine ⟨(token offset first cs).offset, ?_⟩
  rw [kinds_of_begins (beginsToken_of_isWordStart starts)]
  simp [token, notQuote, notDigit, starts]

theorem kinds_mark (m : Mark) (offset : Nat) (cs : List Char) :
    ∃ stop, (ofChars offset (m.sign :: cs)).kinds = .mark m :: (ofChars stop cs).kinds := by
  obtain ⟨begins, notQuote, notTick, notDigit, notWord⟩ := sign_begins m
  have found : Mark.ofSign? m.sign = some m := Mark.ofSign?_eq_some.mpr rfl
  refine ⟨(token offset m.sign cs).offset, ?_⟩
  rw [kinds_of_begins begins]
  simp [token, notQuote, notTick, notDigit, notWord, found]

theorem kinds_digit (digit : first.isDigit) (offset : Nat) (cs : List Char) :
    ∃ value later, (ofChars offset (first :: cs)).kinds = .int value :: later := by
  have notQuote : first ≠ '"' ∧ first ≠ '\'' := by
    constructor <;> rintro rfl <;> revert digit <;> decide
  rw [kinds_of_begins (beginsToken_of_isDigit digit)]
  simp [token, notQuote, digit]

/-! ### Reading names -/

/-- Characters behind which a package name has ended: a semicolon, perhaps behind blanks. -/
def EndsName (rest : List Char) : Prop := ∃ more, rest.dropWhile Text.isBlank = ';' :: more

variable {name rest : List Char} {offset : Nat} {later : List TokenKind}

theorem EndsName.kinds (ends : EndsName rest) (offset : Nat) :
    ∃ later, (ofChars offset rest).kinds = .mark .semicolon :: later := by
  obtain ⟨more, shape⟩ := ends
  obtain ⟨behind, skipped⟩ := ofChars_dropWhile_isBlank offset rest
  rw [skipped, shape]
  obtain ⟨stop, read⟩ := kinds_mark .semicolon behind more
  exact ⟨_, read⟩

theorem EndsName.not_isWordPart (ends : EndsName rest) : ∀ c ∈ rest.head?, isWordPart c = false := by
  obtain ⟨more, shape⟩ := ends
  intro c begins
  obtain ⟨cs, rfl⟩ := List.head?_eq_some_iff.mp begins
  by_cases white : Text.isBlank c
  · exact isWordPart_eq_false (.inl white)
  · rw [List.dropWhile_cons_of_neg white] at shape
    obtain rfl := (List.cons.inj shape).1
    decide +kernel

/-- An identifier that is read from the characters of a name and what ends it: it is spelled by the first of them. -/
theorem word_of_kinds {word : String} (inside : ∀ c ∈ name, QualifiedName.isPackagePart c) (ends : EndsName rest)
    (read : (ofChars offset (name ++ rest)).kinds = .ident word :: later) :
    ∃ left stop, name = word.toList ++ left ∧ (∀ c ∈ left.head?, isWordPart c = false) ∧
      (ofChars stop (left ++ rest)).kinds = later := by
  cases name with
  | nil =>
    obtain ⟨more, ended⟩ := ends.kinds offset
    cases ended.symm.trans read
  | cons first name =>
    rcases QualifiedName.isPackagePart_cases (inside first (List.mem_cons_self ..)) with starts | digit | rfl
    · let left := name.dropWhile isWordPart
      have stops : ∀ c ∈ (left ++ rest).head?, isWordPart c = false := by
        rcases shape : left with _ | ⟨d, more⟩
        · exact ends.not_isWordPart
        · have stopped : ∀ c ∈ left.head?, isWordPart c = false := dropWhile_stops isWordPart name
          rwa [shape] at stopped
      have run : ∀ c ∈ name.takeWhile isWordPart, isWordPart c := fun c => List.mem_takeWhile_imp
      have split : name ++ rest = name.takeWhile isWordPart ++ (left ++ rest) := by
        rw [← List.append_assoc, List.takeWhile_append_dropWhile]
      obtain ⟨taken, dropped⟩ := takeWhile_append_of_stops run stops
      obtain ⟨stop, reads⟩ := kinds_word starts offset (name ++ rest)
      rw [split, taken, dropped] at reads
      rw [List.cons_append, split, reads] at read
      obtain ⟨same, behind⟩ := List.cons.inj read
      have spelled : first :: name.takeWhile isWordPart = word.toList := by
        have words := word?_wordKind (String.ofList (first :: name.takeWhile isWordPart))
        rw [same] at words
        rw [Option.some.inj words, String.toList_ofList]
      refine ⟨left, stop, ?_, dropWhile_stops isWordPart name, behind⟩
      rw [← spelled, List.cons_append, List.takeWhile_append_dropWhile]
    · obtain ⟨value, more, number⟩ := kinds_digit digit offset (name ++ rest)
      cases number.symm.trans read
    · obtain ⟨stop, dot⟩ := kinds_mark .dot offset (name ++ rest)
      cases dot.symm.trans read

/-- The rest of a dotted name: what the parser reads as dots and identifiers is spelled so. -/
theorem name_of_kinds {words : List String} {more : List TokenKind}
    (inside : ∀ c ∈ name, QualifiedName.isPackagePart c) (ends : EndsName rest)
    (breaks : ∀ c ∈ name.head?, isWordPart c = false)
    (read : (ofChars offset (name ++ rest)).kinds =
      (words.flatMap fun word => [.mark .dot, .ident word]) ++ .mark .semicolon :: more) :
    name = words.flatMap fun word => '.' :: word.toList := by
  induction words generalizing name offset with
  | nil =>
    rcases QualifiedName.eq_nil_or_dot inside breaks with rfl | ⟨left, rfl⟩
    · rfl
    · obtain ⟨stop, dot⟩ := kinds_mark .dot offset (left ++ rest)
      cases dot.symm.trans read
  | cons word words ih =>
    rcases QualifiedName.eq_nil_or_dot inside breaks with rfl | ⟨left, rfl⟩
    · obtain ⟨ended, semicolon⟩ := ends.kinds offset
      cases semicolon.symm.trans read
    · obtain ⟨_, inside⟩ := List.forall_mem_cons.mp inside
      obtain ⟨stop, dot⟩ := kinds_mark .dot offset (left ++ rest)
      have behind := (List.cons.inj (dot.symm.trans read)).2
      obtain ⟨left, stop, rfl, breaks, read⟩ := word_of_kinds inside ends behind
      have spelled := ih (fun c member => inside c (List.mem_append_right _ member)) breaks read
      rw [List.flatMap_cons, ← spelled]
      rfl

end Lexed

/-! ### The declaration -/

theorem DottedName.toList_text {n : DottedName} {first : String} {later : List String} (parts : n.parts = first :: later) :
    n.text.toList = first.toList ++ later.flatMap fun word => '.' :: word.toList := by
  rw [text, parts, toList_intercalate_cons]

/-- A class does not begin with the word. -/
theorem ClassDeclaration.SpelledBy.head?_ne {c : ClassDeclaration} {tokens : List TokenKind}
    (spelled : c.SpelledBy tokens) : tokens.head? ≠ some (.keyword .packageKw) := by
  obtain ⟨words, members, ⟨written, rfl, _, modifying, _⟩, _, rfl⟩ := spelled
  cases written with
  | nil => simp
  | cons modifier written =>
    cases modifier with
    | atName name arguments => simp [WrittenModifier.print]
    | word k =>
      have listed : k ∈ c.modifiers.words := (modifying k).mp (List.mem_cons_self ..)
      intro begins
      cases begins
      simp [Modifiers.words] at listed

/-- A unit whose tokens begin with the word has a package declaration, and its tokens come next. -/
theorem SourceUnit.SpelledBy.package_eq {u : SourceUnit} {later : List TokenKind}
    (spelled : u.SpelledBy (.keyword .packageKw :: later)) :
    ∃ n more, u.package = some n ∧ later = n.print ++ .mark .semicolon :: more := by
  obtain ⟨imports, classes, related, among, shape⟩ := spelled
  cases declared : u.package with
  | some n =>
    rw [declared] at shape
    refine ⟨n, imports.flatten ++ classes, rfl, ?_⟩
    simpa using shape
  | none =>
    rw [declared] at shape
    -- Then the word would begin an import or a class.
    generalize u.imports = names at related
    generalize u.classes = items at among
    cases related with
    | cons first _ =>
      obtain ⟨_, _, _, _, rfl⟩ := first
      simp at shape
    | nil =>
      cases among with
      | nil => cases shape
      | semicolon => cases shape
      | @item _ _ first _ spelled _ =>
        obtain ⟨token, more, rfl⟩ := List.exists_cons_of_ne_nil spelled.ne_nil
        obtain rfl : .keyword .packageKw = token := (List.cons.inj shape).1
        exact absurd rfl spelled.head?_ne

/-- The run of the parser on tokens that form a unit. -/
theorem SourceUnit.run_of_ofTokens {tokens : List Token} {stop : Span} {u : SourceUnit}
    (formed : SourceUnit.ofTokens tokens stop = .ok u) :
    ∃ after, Parser.sourceUnit.run.run { ahead := tokens, stop } = (.ok u, after) ∧ after.faults = [] := by
  unfold SourceUnit.ofTokens at formed
  split at formed
  · next parsed after ran =>
    split at formed
    · next clean =>
      obtain rfl := Except.ok.inj formed
      exact ⟨after, ran, List.isEmpty_iff.mp clean⟩
    · cases formed
  · cases formed

/-- The word that begins a package declaration, in front of a blank. -/
theorem Lexed.kinds_packageWord {blank : Char} (white : Text.isBlank blank) (offset : Nat) (behind : List Char) :
    ∃ stop, (ofChars offset (QualifiedName.packageWord ++ blank :: behind)).kinds =
      .keyword .packageKw :: (ofChars stop (blank :: behind)).kinds := by
  have letters : QualifiedName.packageWord.tail.all isWordPart = true := by decide +kernel
  have inside : ∀ c ∈ QualifiedName.packageWord.tail, isWordPart c := List.all_eq_true.mp letters
  have stops : ∀ c ∈ (blank :: behind).head?, isWordPart c = false := by
    intro c begins
    obtain rfl := Option.some.inj begins
    exact isWordPart_eq_false (.inl white)
  obtain ⟨taken, dropped⟩ := takeWhile_append_of_stops inside stops
  have starts : isWordStart 'p' := by decide +kernel
  obtain ⟨stop, read⟩ := kinds_word starts offset (QualifiedName.packageWord.tail ++ blank :: behind)
  rw [taken, dropped] at read
  exact ⟨stop, read⟩

/-- The parser finds the package that the beginning of a source declares. -/
theorem SourceUnit.package_of_package? {source p : String} {u : SourceUnit}
    (formed : SourceUnit.ofTokens (Lexed.ofSource source).tokens (Lexed.ofSource source).stopSpan = .ok u)
    (declared : QualifiedName.package? source = some p) : ∃ n, u.package = some n ∧ n.text = p := by
  obtain ⟨name, found, rfl⟩ := Option.map_eq_some_iff.mp declared
  obtain ⟨blank, behind, first, part, rest, more, begins, white, left, starts, inside, ends, rfl⟩ :=
    QualifiedName.eq_of_packageList? found
  -- The tokens begin with the word, and behind it stand those of the name.
  obtain ⟨offset, skipped⟩ := Lexed.ofChars_dropWhile_isBlank 0 source.toList
  obtain ⟨stop, keyword⟩ := Lexed.kinds_packageWord white offset behind
  obtain ⟨start, skippedMore⟩ := Lexed.ofChars_dropWhile_isBlank stop (blank :: behind)
  rw [← begins, ← skipped, skippedMore, left] at keyword
  obtain ⟨after, ran, clean⟩ := run_of_ofTokens formed
  obtain ⟨_, tokens, _, rfl, spelled⟩ := Parser.sourceUnit_accounts _ _ ran clean
  change u.SpelledBy (Lexed.ofSource source).kinds at spelled
  rw [Lexed.ofSource, keyword] at spelled
  obtain ⟨n, later, package, read⟩ := spelled.package_eq
  refine ⟨n, package, ?_⟩
  rw [DottedName.print] at read
  rcases parts : n.parts with _ | ⟨word, words⟩
  · obtain ⟨_, begins⟩ := Lexed.kinds_word (QualifiedName.isWordStart_of_isPackageStart starts) start (part ++ rest)
    rw [parts, begins] at read
    have noWord := congrArg TokenKind.word? (List.cons.inj read).1
    rw [word?_wordKind] at noWord
    cases noWord
  · rw [parts] at read
    have named : ∀ c ∈ first :: part, QualifiedName.isPackagePart c :=
      List.forall_mem_cons.mpr ⟨QualifiedName.isPackagePart_of_isPackageStart starts, inside⟩
    obtain ⟨dots, stop, spelling, breaks, read⟩ := Lexed.word_of_kinds named ⟨more, ends⟩ read
    rw [List.flatMap_map] at read
    have dotted := Lexed.name_of_kinds (fun c member => named c (spelling ▸ List.mem_append_right _ member))
      ⟨more, ends⟩ breaks read
    rw [← String.toList_inj, n.toList_text parts, String.toList_ofList, spelling, dotted]

end RouteClass

end RouteDepot
