import RouteDepot.Proofs.Spelling.Expressions

/-! # Statements that were read

A statement or a block accounts for its tokens. Blocks recover from the faults of their statements, but then a fault
is on record; by induction on the levels that may be opened, the blocks inside a block account for their tokens too.
-/

namespace RouteDepot.RouteClass.Parser

variable {nested : Parser Expression} {nestedBlock : Parser Block} {c : Cursor}

section Nested

variable (spelled : ∀ c, Accounts nested c Expression.SpelledBy)

include spelled

theorem initialValue_accounts : Accounts (initialValue nested) c ValueSpelledBy := by
  apply Accounts.accept
  · intro after
    simp only [↓reduceIte]
    apply (spelled after).bind
    intro value tokens after
    apply Accounts.pure
    intro spelledValue
    rw [List.append_nil]
    exact .present spelledValue
  · exact .pure .absent

theorem localDeclaration_accounts : Accounts (localDeclaration nested) c Statement.SpelledBy := by
  apply Accounts.optionally
  intro _ final after constant
  apply typeName_accounts.bind
  intro type tokens after
  apply Accounts.ident
  intro name after
  apply (initialValue_accounts spelled).bind
  intro value initial after
  apply Accounts.expect
  intro semicolon after
  apply Accounts.pure
  rintro spelledValue rfl
  rw [← List.cons_append, ← List.append_assoc, ← List.append_assoc]
  exact .declare type name constant spelledValue

variable (spelledBlock : ∀ c, Accounts nestedBlock c Block.SpelledBy)

include spelledBlock

theorem statement_accounts : Accounts (statement nested nestedBlock) c Statement.SpelledBy := by
  apply Accounts.resetLinks
  intro c
  apply Accounts.get
  split
  · next head =>
    apply Accounts.skip head
    intro after
    exact .pure .empty
  · apply (spelledBlock c).bind
    intro inner tokens after
    apply Accounts.pure
    rintro ⟨items, related, rfl⟩
    rw [List.append_nil]
    exact .block _ related
  · next head =>
    apply Accounts.get
    apply Accounts.skip head
    intro after
    apply Accounts.accept
    · intro after
      exact .pure (.return _)
    · exact .fail
  · next head =>
    apply Accounts.get
    apply Accounts.skip head
    intro after
    apply (spelled after).bind
    intro value tokens after
    apply Accounts.expect
    intro semicolon after
    exact .pure (.throw _)
  · apply Accounts.get
    split
    · exact localDeclaration_accounts spelled
    · apply (spelled c).bind
      intro value tokens after
      apply Accounts.expect
      intro semicolon after
      exact .pure .expression

omit spelled spelledBlock

/-- Whether a body ends is told without moving on. -/
theorem Accounts.bodyEnds {α : Type} {next : Bool → Parser α} {means : α → List TokenKind → Prop}
    (ends : Accounts (next true) c means) (goesOn : Accounts (next false) c means) :
    Accounts (Parser.bodyEnds >>= next) c means := by
  rw [Parser.bodyEnds, bind_assoc]
  apply Accounts.get
  split
  · exact ends
  · exact ends
  · exact goesOn

include spelled spelledBlock

theorem bodyStatement_accounts (done : List Statement) (c : Cursor) :
    Accounts (bodyStatement nested nestedBlock done) c fun r more =>
      r = none ∧ more = [] ∨ ∃ s, r = some (done ++ [s]) ∧ s.SpelledBy more := by
  apply Accounts.bodyEnds
  · exact .pure (.inl ⟨rfl, rfl⟩)
  · have spelledStatement := statement_accounts spelled spelledBlock (c := c)
    exact (Accounts.recover_append faults_afterMember spelledStatement).mono fun _ _ => .inr

theorem braced_accounts : Accounts (braced nested nestedBlock) c Block.SpelledBy := by
  apply Accounts.expect
  intro opening after
  apply (Accounts.collect (bodyStatement_accounts spelled spelledBlock)).bind
  intro body tokens after
  apply Accounts.expect
  intro closing after
  apply Accounts.pure
  rintro ⟨statements, items, rfl, related, rfl⟩
  exact ⟨items, related, rfl⟩

end Nested

theorem block_accounts (room : Nat) (c : Cursor) : Accounts (block room) c Block.SpelledBy := by
  induction room generalizing c with
  | zero => exact .fail
  | succ room ih => exact braced_accounts (expression_accounts room) ih

end RouteDepot.RouteClass.Parser
