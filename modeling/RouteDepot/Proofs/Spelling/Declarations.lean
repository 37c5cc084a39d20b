import RouteDepot.Proofs.Printing.Declarations
import RouteDepot.Proofs.Spelling.Statements

/-! # Declarations that were read

Modifiers, parameters and the members of a class account for their tokens. What is skipped behind an at-sign name is
balanced, because one parenthesis closes after another until none is open.
-/

namespace RouteDepot.RouteClass

/-! ### Closing parentheses -/

/-- Tokens that close a number of parentheses, with balanced tokens in front of each of them. -/
def Closing : Nat → List TokenKind → Prop
  | 0, tokens => tokens = []
  | depth + 1, tokens =>
    ∃ inner later, Balanced inner ∧ Closing depth later ∧ tokens = inner ++ .mark .parenClose :: later

theorem Closing.plain {kind : TokenKind} {depth : Nat} {tokens : List TokenKind} (closing : Closing (depth + 1) tokens)
    (notOpen : kind ≠ .mark .parenOpen) (notClose : kind ≠ .mark .parenClose) :
    Closing (depth + 1) (kind :: tokens) := by
  obtain ⟨inner, later, balanced, closing, rfl⟩ := closing
  exact ⟨kind :: inner, later, .plain notOpen notClose balanced, closing, rfl⟩

/-- An opening parenthesis takes the first one of those that close. -/
theorem Closing.opened {depth : Nat} {tokens : List TokenKind} (closing : Closing (depth + 2) tokens) :
    Closing (depth + 1) (.mark .parenOpen :: tokens) := by
  obtain ⟨inner, _, balanced, ⟨inner', later, balanced', closing, rfl⟩, rfl⟩ := closing
  exact ⟨parenthesize inner ++ inner', later, .nested balanced balanced', closing, by simp [parenthesize]⟩

theorem closing_of_skipParens? {depth : Nat} {tokens later : List Token} {last : Span}
    (skipped : skipParens? (depth + 1) tokens = some (later, last)) :
    ∃ closing, tokens.map (·.kind) = closing ++ later.map (·.kind) ∧ Closing (depth + 1) closing := by
  induction tokens generalizing depth with
  | nil => cases skipped
  | cons token tokens ih =>
    rw [skipParens?] at skipped
    split at skipped
    · next opens =>
      obtain ⟨closing, facing, closes⟩ := ih skipped
      exact ⟨_ :: closing, by rw [List.map_cons, facing, opens]; rfl, closes.opened⟩
    · next closes =>
      cases depth with
      | zero =>
        obtain ⟨rfl, _⟩ := Prod.mk.inj (Option.some.inj skipped)
        exact ⟨[.mark .parenClose], by rw [List.map_cons, closes]; rfl, [], [], .nil, rfl, rfl⟩
      | succ depth =>
        obtain ⟨closing, facing, closesLater⟩ := ih skipped
        exact ⟨_ :: closing, by rw [List.map_cons, facing, closes]; rfl, [], closing, .nil, closesLater, rfl⟩
    · next notOpen notClose =>
      obtain ⟨closing, facing, closes⟩ := ih skipped
      exact ⟨token.kind :: closing, by rw [List.map_cons, facing]; rfl, closes.plain notOpen notClose⟩

/-! ### Modifiers -/

theorem Parser.mem_words_of_withWord? {m more : Modifiers} {word : Keyword}
    (adds : Parser.withWord? m word = some more) (other : Keyword) :
    other ∈ more.words ↔ other ∈ m.words ∨ other = word := by
  unfold Parser.withWord? at adds
  split at adds <;> cases adds <;> simp only [Modifiers.words, List.mem_append, List.mem_ite_nil_right] <;> grind

namespace Modifiers

variable {m : Modifiers} {tokens : List TokenKind}

theorem spelledBy_nil : SpelledBy {} [] :=
  ⟨[], rfl, nofun, by simp [words], rfl⟩

theorem SpelledBy.withWord {more : Modifiers} {word : Keyword} (spelled : m.SpelledBy tokens)
    (adds : Parser.withWord? m word = some more) : more.SpelledBy (tokens ++ [.keyword word]) := by
  obtain ⟨written, rfl, plain, sameWords, sameNames⟩ := spelled
  refine ⟨written ++ [.word word], by simp [WrittenModifier.print], ?_, ?_, ?_⟩
  · simpa [or_imp, forall_and, WrittenModifier.IsPlain] using plain
  · intro other
    rw [Parser.mem_words_of_withWord? adds, ← sameWords]
    simp
  · have sameAnnotations : more.annotations = m.annotations := by
      unfold Parser.withWord? at adds
      split at adds <;> cases adds <;> rfl
    simpa [List.filterMap_cons, WrittenModifier.name?, sameAnnotations] using sameNames

theorem SpelledBy.withName {name : DottedName} {arguments : List TokenKind} (spelled : m.SpelledBy tokens)
    (isPlain : (WrittenModifier.atName name arguments).IsPlain) :
    SpelledBy { m with annotations := m.annotations ++ [name] }
      (tokens ++ (WrittenModifier.atName name arguments).print) := by
  obtain ⟨written, rfl, plain, sameWords, sameNames⟩ := spelled
  refine ⟨written ++ [.atName name arguments], by simp, ?_, ?_, ?_⟩
  · simpa [or_imp, forall_and, isPlain] using plain
  · intro other
    rw [List.mem_append, List.mem_singleton, or_iff_left WrittenModifier.noConfusion]
    exact sameWords other
  · simp [WrittenModifier.name?, sameNames]

end Modifiers

namespace Parser

variable {c : Cursor}

theorem skipArguments_accounts :
    Accounts skipArguments c fun _ tokens => tokens = [] ∨ ∃ inner, Balanced inner ∧ tokens = parenthesize inner := by
  apply Accounts.sees
  · intro head
    simp only [↓reduceIte]
    apply Accounts.get
    have opens : c.ahead.map (·.kind) = .mark .parenOpen :: c.advance.kinds := kinds_eq_of_next head
    obtain ⟨span, tail, ahead, _⟩ := tokens_eq_cons opens
    rw [ahead]
    split
    · next later last skipped =>
      obtain ⟨_, facing, inner, _, balanced, rfl, rfl⟩ := closing_of_skipParens? skipped
      have facing : c.kinds = parenthesize inner ++ later.map (·.kind) := by
        rw [Cursor.kinds, ahead, List.map_cons, facing]
        simp [parenthesize]
      rw [← bind_pure (set _)]
      refine .moves rfl facing rfl ?_
      intro after
      apply Accounts.pure
      exact .inr ⟨inner, balanced, List.append_nil _⟩
    · refine .moves rfl (List.append_nil _).symm rfl ?_
      intro after
      exact .failExpected
  · exact .pure (.inl rfl)

theorem atName_accounts :
    Accounts atName c fun name tokens =>
      ∃ arguments, (WrittenModifier.atName name arguments).IsPlain ∧
        tokens = (WrittenModifier.atName name arguments).print := by
  apply Accounts.expect
  intro atSign after
  apply dottedName_accounts.bind
  intro name tokens after
  apply skipArguments_accounts.bind
  intro _ arguments after
  apply Accounts.pure
  rintro plain ⟨_, rfl⟩
  exact ⟨arguments, plain, by simp [WrittenModifier.print]⟩

theorem moreModifiers_accounts (m : Modifiers) (done : List TokenKind) (c : Cursor) :
    Accounts (moreModifiers m) c fun r more =>
      r.elim (more = []) fun next => m.SpelledBy done → next.SpelledBy (done ++ more) := by
  apply Accounts.get
  split
  · apply atName_accounts.bind
    intro name tokens after
    apply Accounts.pure
    rintro ⟨arguments, plain, rfl⟩ spelled
    rw [List.append_nil]
    exact spelled.withName plain
  · next word head =>
    split
    · next more adds =>
      apply Accounts.skip head
      intro after
      apply Accounts.pure
      intro spelled
      exact spelled.withWord adds
    · exact .pure rfl
  · exact .pure rfl

theorem modifiers_accounts : Accounts modifiers c Modifiers.SpelledBy := by
  rw [modifiers_eq]
  exact .iterate Modifiers.spelledBy_nil moreModifiers_accounts

/-! ### Parameters -/

theorem parameter_accounts : Accounts parameter c Parameter.SpelledBy := by
  apply Accounts.optionally
  intro _ final after constant
  apply typeName_accounts.bind
  intro type tokens after
  apply Accounts.ident
  intro name after
  apply Accounts.pure
  rintro rfl
  exact ⟨final, constant, rfl⟩

theorem parameters_accounts : Accounts parameters c ParametersSpelledBy := by
  rw [parameters_eq]
  exact enclosed_accounts fun _ => parameter_accounts

/-! ### Members -/

theorem resultType_accounts :
    Accounts resultType c fun result tokens => tokens = result.elim [.keyword .voidKw] TypeName.print := by
  apply Accounts.accept
  · intro after
    exact .pure rfl
  · exact typeName_accounts.map

/-- Behind its modifiers and its type, a field or a method accounts for the rest. -/
theorem typedMember_accounts (modifiers : Modifiers) (result : Option TypeName) :
    Accounts (typedMember modifiers result) c fun m tokens =>
      ∀ words, modifiers.SpelledBy words →
        m.SpelledBy (words ++ (result.elim [.keyword .voidKw] TypeName.print) ++ tokens) := by
  apply Accounts.ident
  intro name after
  apply Accounts.sees
  · intro _
    simp only [↓reduceIte]
    apply parameters_accounts.bind
    intro parameters declared after
    apply (namesAfter_accounts .throwsKw).bind
    intro throws tokens after
    apply Accounts.accept
    · intro after
      simp only [↓reduceIte]
      apply Accounts.pure
      rintro ⟨_, rfl⟩ declared words modified
      simpa using Member.SpelledBy.method (m := ⟨modifiers, result, name, parameters, throws, none⟩) modified
        declared .absent
    · simp only [Bool.false_eq_true, ↓reduceIte, bind_map_left]
      apply (block_accounts nestingLimit _).bind
      intro body tokens after
      apply Accounts.pure
      rintro spelled ⟨_, rfl⟩ declared words modified
      simpa using Member.SpelledBy.method (m := ⟨modifiers, result, name, parameters, throws, some body⟩) modified
        declared (.present spelled)
  · simp only [Bool.false_eq_true, ↓reduceIte]
    split
    · exact .failAt
    · next type =>
      apply Accounts.resetLinks
      intro after
      apply (initialValue_accounts (expression_accounts nestingLimit)).bind
      intro value initial after
      apply Accounts.expect
      intro semicolon after
      apply Accounts.pure
      intro spelled words modified
      rw [← List.cons_append, ← List.append_assoc]
      exact .field (f := ⟨modifiers, type, name, value⟩) modified spelled

theorem fieldOrMethod_accounts (modifiers : Modifiers) :
    Accounts (member.fieldOrMethod modifiers) c fun m tokens =>
      ∀ words, modifiers.SpelledBy words → m.SpelledBy (words ++ tokens) := by
  rw [fieldOrMethod_eq]
  apply resultType_accounts.bind
  intro result tokens after
  apply (typedMember_accounts modifiers result).mono
  rintro m more spelled rfl words modified
  rw [← List.append_assoc]
  exact spelled words modified

theorem member_accounts (className : String) : Accounts (member className) c Member.SpelledBy := by
  apply modifiers_accounts.bind
  intro modifiers words after
  have others : Accounts (member.fieldOrMethod modifiers) after fun m more =>
      modifiers.SpelledBy words → m.SpelledBy (words ++ more) :=
    (fieldOrMethod_accounts modifiers).mono fun _ _ spelled => spelled words
  apply Accounts.get
  split
  · exact .fail
  · exact .fail
  · exact .fail
  · split
    · apply Accounts.ident
      intro name after
      apply parameters_accounts.bind
      intro parameters declared after
      apply (namesAfter_accounts .throwsKw).bind
      intro throws tokens after
      apply (block_accounts nestingLimit after).bind
      intro body tokens after
      apply Accounts.pure
      rintro spelled ⟨named, rfl⟩ declared modified
      simpa using Member.SpelledBy.constructor (c := ⟨modifiers, name, parameters, body⟩) modified declared throws named
        spelled
    · exact others
  · exact others

end Parser

end RouteDepot.RouteClass
