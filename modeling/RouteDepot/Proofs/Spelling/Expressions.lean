import RouteDepot.Proofs.Spelling.Names

/-! # Expressions that were read

What the parser of nested expressions accounts for carries over to primary expressions, chains and sums; by induction
on the levels that may be opened, every expression accounts for its tokens.
-/

namespace RouteDepot.RouteClass

theorem print_of_literal? {kind : TokenKind} {value : Literal} (read : Parser.literal? kind = some value) :
    value.print = kind := by
  cases kind with
  | ident | mark => cases read
  | str | char | int =>
    obtain rfl := Option.some.inj read
    rfl
  | keyword k => cases k <;> cases read <;> rfl

namespace Parser

variable {nested : Parser Expression} {c : Cursor} (spelled : ∀ c, Accounts nested c Expression.SpelledBy)

include spelled

theorem arguments_accounts :
    Accounts (arguments nested) c fun args tokens =>
      ∃ items, List.Forall₂ Expression.SpelledBy args items ∧ tokens = printArguments items := by
  rw [arguments_eq]
  exact enclosed_accounts spelled

theorem primary_accounts : Accounts (primary nested) c Expression.SpelledAsOperand := by
  apply Accounts.get
  apply Accounts.get
  split
  · apply Accounts.ident
    intro name after
    apply Accounts.sees
    · intro _
      apply (arguments_accounts spelled).bind
      intro args tokens after
      apply Accounts.get
      apply Accounts.pure
      rintro ⟨items, related, rfl⟩
      rw [List.append_nil]
      exact .call name _ related
    · exact .pure (.name name)
  · next head =>
    apply Accounts.skip head
    intro after
    exact .pure (.this _)
  · next head =>
    apply Accounts.skip head
    intro after
    apply dottedName_accounts.bind
    intro type name after
    apply (arguments_accounts spelled).bind
    intro args tokens after
    apply Accounts.get
    apply Accounts.pure
    rintro ⟨items, related, rfl⟩ ⟨_, rfl⟩
    rw [List.append_nil]
    exact .new type _ related
  · next head =>
    apply Accounts.skip head
    intro after
    apply (spelled after).bind
    intro inner tokens after
    apply Accounts.expect
    intro closing after
    exact .pure .parentheses
  · next kind _ _ _ _ head =>
    split
    · next value read =>
      apply Accounts.skip head
      intro after
      apply Accounts.pure
      rw [← print_of_literal? read]
      exact .literal value _
    · exact .failExpected
  · exact .failExpected

theorem chainLink_accounts (target : Expression) (done : List TokenKind) (c : Cursor) :
    Accounts (chainLink nested target) c fun r more =>
      r.elim (more = []) fun next => target.SpelledAsOperand done → next.SpelledAsOperand (done ++ more) := by
  apply Accounts.accept
  · intro after
    simp only [↓reduceIte]
    apply Accounts.link
    intro after
    apply Accounts.ident
    intro name after
    apply Accounts.sees
    · intro _
      apply (arguments_accounts spelled).bind
      intro args tokens after
      apply Accounts.get
      apply Accounts.pure
      rintro ⟨items, related, rfl⟩ spelledTarget
      rw [List.append_nil]
      exact .callOn name _ spelledTarget related
    · exact .pure (.field name)
  · exact .pure rfl

theorem chain_accounts : Accounts (chain nested) c Expression.SpelledAsOperand :=
  .bind_iterate (primary_accounts spelled) (chainLink_accounts spelled)

theorem sumTerm_accounts (left : Expression) (done : List TokenKind) (c : Cursor) :
    Accounts (sumTerm nested left) c fun r more =>
      r.elim (more = []) fun next => left.SpelledBy done → next.SpelledBy (done ++ more) := by
  apply Accounts.accept
  · intro after
    simp only [↓reduceIte]
    apply Accounts.link
    intro after
    apply (chain_accounts spelled).bind
    intro right tokens after
    apply Accounts.pure
    intro spelledRight spelledLeft
    rw [List.append_nil]
    exact .concat spelledLeft spelledRight
  · exact .pure rfl

theorem sum_accounts : Accounts (sum nested) c Expression.SpelledBy :=
  .bind_iterate ((chain_accounts spelled).mono fun _ _ => .operand) (sumTerm_accounts spelled)

omit spelled

theorem expression_accounts (room : Nat) (c : Cursor) : Accounts (expression room) c Expression.SpelledBy := by
  induction room generalizing c with
  | zero => exact .fail
  | succ room ih => exact sum_accounts ih

end Parser

end RouteDepot.RouteClass
