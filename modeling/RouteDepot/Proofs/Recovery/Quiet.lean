import RouteDepot.Proofs.Recovery.Moving

/-! # Parsers that record nothing

Names, lists, expressions, modifiers and the other parts of a member outside its blocks. An expression moves past a
token wherever it yields one, and so does every step of a loop that goes on.
-/

namespace RouteDepot.RouteClass.Parser

variable {α : Type} {c : Cursor} {consumes : α → Prop}

/-! ### Single tokens -/

theorem skip_quiet {kind : TokenKind} (head : c.next? = some kind) : Quiet skip c Always := by
  rw [← bind_pure skip]
  exact .skip head fun _ => .pure id

theorem sees_quiet (kind : TokenKind) : Quiet (sees kind) c Never := by
  rw [← bind_pure (sees kind)]
  exact .sees (fun _ => .pure id) (.pure id)

theorem accept_quiet (kind : TokenKind) : Quiet (accept kind) c Never := by
  rw [← bind_pure (accept kind)]
  exact .accept (fun _ => .pure id) (.pure id)

theorem expect_quiet (kind : TokenKind) (what : String) : Quiet (expect kind what) c Always := by
  rw [← bind_pure (expect kind what)]
  exact .expect fun _ _ => .pure id

theorem ident_quiet : Quiet ident c Always := by
  rw [← bind_pure ident]
  exact .ident fun _ _ => .pure id

/-! ### Names and lists -/

/-- What a step of a loop yields when the loop goes on. -/
abbrev GoesOn (r : Option α) : Prop := r ≠ none

theorem furtherPart_quiet (parts : List String) (c : Cursor) : Quiet (furtherPart parts) c GoesOn := by
  apply Quiet.get
  split
  · next ahead =>
    exact .skip (by rw [Cursor.next?, ahead]; rfl) fun after => .ident fun _ _ => .pure id
  · exact .pure (· rfl)

theorem dottedName_quiet : Quiet dottedName c Always := by
  rw [dottedName_eq]
  apply Quiet.ident
  intro first after
  refine .bind_moving (.iterate fun parts c => (furtherPart_quiet parts c).mono fun _ => False.elim) ?_
  exact fun parts after => .get (.pure id)

section Lists

variable {item : Parser α} (quiet : ∀ c, Quiet item c Always)

include quiet

theorem furtherItem_quiet (done : List α) (c : Cursor) : Quiet (furtherItem item done) c GoesOn := by
  apply Quiet.accept
  · intro after
    exact .bind_moving ((quiet after).mono fun _ => False.elim) fun _ _ => .pure id
  · exact .pure (· rfl)

theorem commaSeparated_quiet : Quiet (commaSeparated item) c Always := by
  rw [commaSeparated_eq]
  exact .bind_iterate (quiet c) fun done c => (furtherItem_quiet quiet done c).mono fun _ => False.elim

theorem enclosed_quiet : Quiet (enclosed item) c Always := by
  apply Quiet.expect
  intro opening after
  apply Quiet.sees
  · intro _
    exact .bind_moving (.pure id) fun _ _ => .expect fun _ _ => .pure id
  · exact .bind_moving ((commaSeparated_quiet quiet).mono fun _ => False.elim) fun _ _ => .expect fun _ _ => .pure id

end Lists

/-! ### Expressions -/

section Nested

variable {nested : Parser Expression} (quiet : ∀ c, Quiet nested c Always)

include quiet

theorem arguments_quiet : Quiet (arguments nested) c Always := by
  rw [arguments_eq]
  exact enclosed_quiet quiet

theorem primary_quiet : Quiet (primary nested) c Always := by
  apply Quiet.get
  apply Quiet.get
  split
  · apply Quiet.ident
    intro name after
    apply Quiet.sees
    · intro _
      exact .bind_moved (arguments_quiet quiet) fun _ _ => .get (.pure id)
    · exact .pure id
  · next head => exact .skip head fun _ => .pure id
  · next head =>
    refine .skip head fun _ => .bind_moved dottedName_quiet fun _ _ => ?_
    exact .bind_moved (arguments_quiet quiet) fun _ _ => .get (.pure id)
  · next head =>
    refine .skip head fun after => .bind_moved (quiet after) fun _ _ => ?_
    exact .expect fun _ _ => .pure id
  · next head =>
    split
    · exact .skip head fun _ => .pure id
    · exact .failExpected
  · exact .failExpected

theorem chainLink_quiet (target : Expression) (c : Cursor) : Quiet (chainLink nested target) c GoesOn := by
  apply Quiet.accept
  · intro after
    apply Quiet.link
    intro after
    apply Quiet.ident
    intro name after
    apply Quiet.sees
    · intro _
      exact .bind_moved (arguments_quiet quiet) fun _ _ => .get (.pure id)
    · exact .pure id
  · exact .pure (· rfl)

theorem chain_quiet : Quiet (chain nested) c Always :=
  .bind_iterate (primary_quiet quiet) fun e c => (chainLink_quiet quiet e c).mono fun _ => False.elim

theorem sumTerm_quiet (left : Expression) (c : Cursor) : Quiet (sumTerm nested left) c GoesOn := by
  apply Quiet.accept
  · intro after
    apply Quiet.link
    intro after
    exact .bind_moved (chain_quiet quiet) fun _ _ => .pure id
  · exact .pure (· rfl)

theorem sum_quiet : Quiet (sum nested) c Always :=
  .bind_iterate (chain_quiet quiet) fun e c => (sumTerm_quiet quiet e c).mono fun _ => False.elim

end Nested

theorem expression_quiet (room : Nat) (c : Cursor) : Quiet (expression room) c Always := by
  induction room generalizing c with
  | zero => exact .fail
  | succ room ih => exact sum_quiet ih

/-! ### Parts of statements and members -/

theorem typeName_quiet : Quiet typeName c Always := by
  apply Quiet.bind_moved dottedName_quiet
  intro name after
  apply Quiet.sees
  · intro _
    exact .throws rfl
  · simp only [Bool.false_eq_true, ↓reduceIte]
    apply Quiet.accept
    · intro after
      exact .expect fun _ _ => .pure id
    · exact .pure id

section Nested

variable {nested : Parser Expression} (quiet : ∀ c, Quiet nested c Always)

include quiet

theorem initialValue_quiet : Quiet (initialValue nested) c Never := by
  apply Quiet.accept
  · intro after
    exact .bind_moved (quiet after) fun _ _ => .pure id
  · exact .pure id

/-- What ends with a semicolon has moved past it. -/
theorem throughSemicolon_quiet {f : Expression → Span → Statement} : Quiet (do
    let value ← nested
    let semicolon ← expect (.mark .semicolon) "';'"
    return f value semicolon) c Always :=
  .bind_moved (quiet c) fun _ _ => .expect fun _ _ => .pure id

theorem localDeclaration_quiet : Quiet (localDeclaration nested) c Always := by
  have declaration (c : Cursor) : Quiet (do
      let type ← typeName
      let name ← ident
      let value ← initialValue nested
      let _ ← expect (.mark .semicolon) "';'"
      return Statement.declare type name value) c Always := by
    apply Quiet.bind_moved typeName_quiet
    intro type after
    apply Quiet.ident
    intro name after
    exact .bind_moving (initialValue_quiet quiet) fun _ _ => .expect fun _ _ => .pure id
  apply Quiet.accept
  · intro after
    exact (declaration after).mono fun _ => False.elim
  · exact declaration c

end Nested

theorem exists_eq_append_of_skipParens? {depth : Nat} {tokens later : List Token} {last : Span}
    (skipped : skipParens? depth tokens = some (later, last)) : ∃ past, tokens = past ++ later := by
  fun_induction skipParens? depth tokens with
  | case1 => cases skipped
  | case3 =>
    obtain ⟨rfl, _⟩ := Prod.mk.inj (Option.some.inj skipped)
    exact ⟨[_], rfl⟩
  | case2 _ _ _ _ ih | case4 _ _ _ _ _ ih | case5 _ _ _ _ _ ih =>
    obtain ⟨past, rfl⟩ := ih skipped
    exact ⟨_ :: past, rfl⟩

theorem skipArguments_quiet : Quiet skipArguments c Never := by
  apply Quiet.sees
  · intro _
    apply Quiet.get
    split
    · next later last skipped =>
      obtain ⟨past, ahead⟩ := exists_eq_append_of_skipParens? skipped
      rw [← bind_pure (set _)]
      exact .moves rfl ⟨ahead, rfl, (List.append_nil _).symm⟩ (.pure (·.1))
    · have moved (last : Span) : c.Moves c.ahead [] { c with ahead := [], last } :=
        ⟨(List.append_nil _).symm, rfl, (List.append_nil _).symm⟩
      exact .moves rfl (moved _) .failExpected
  · exact .pure id

theorem atName_quiet : Quiet atName c Always := by
  apply Quiet.expect
  intro atSign after
  apply Quiet.bind_moved dottedName_quiet
  intro name after
  exact .bind_moving skipArguments_quiet fun _ _ => .pure id

theorem moreModifiers_quiet (m : Modifiers) (c : Cursor) : Quiet (moreModifiers m) c GoesOn := by
  apply Quiet.get
  split
  · exact .bind_moved atName_quiet fun _ _ => .pure id
  · next head =>
    split
    · exact .skip head fun _ => .pure id
    · exact .pure (· rfl)
  · exact .pure (· rfl)

theorem modifiers_quiet : Quiet modifiers c Never := by
  rw [modifiers_eq]
  exact .iterate fun m c => (moreModifiers_quiet m c).mono fun _ => False.elim

theorem parameter_quiet : Quiet parameter c Always := by
  have typed (c : Cursor) : Quiet (do let type ← typeName; return ⟨type, ← ident⟩ : Parser Parameter) c Always :=
    .bind_moved typeName_quiet fun _ _ => .ident fun _ _ => .pure id
  apply Quiet.accept
  · intro after
    exact (typed after).mono fun _ => False.elim
  · exact typed c

theorem parameters_quiet : Quiet parameters c Always := by
  rw [parameters_eq]
  exact enclosed_quiet fun _ => parameter_quiet

theorem namesAfter_quiet (word : Keyword) : Quiet (namesAfter word) c Never := by
  apply Quiet.accept
  · intro after
    exact commaSeparated_quiet (fun _ => dottedName_quiet) |>.mono fun _ => False.elim
  · exact .pure id

theorem resultType_quiet : Quiet resultType c Always := by
  apply Quiet.accept
  · intro after
    exact .pure id
  · exact .map typeName_quiet

theorem importName_quiet : Quiet importName c Always := by
  have named (c : Cursor) : Quiet (do
      let name ← dottedName
      let name ← if ← accept (.mark .dot) then do
          let star ← expect (.mark .star) "'*' or identifier"
          Pure.pure ⟨name.parts ++ ["*"], ⟨name.span.start, star.stop⟩⟩
        else Pure.pure name
      let _ ← expect (.mark .semicolon) "';'"
      return name) c Always := by
    apply Quiet.bind_moved dottedName_quiet
    intro name after
    apply Quiet.accept
    · intro after
      exact .expect fun _ _ => .expect fun _ _ => .pure id
    · exact .expect fun _ _ => .pure id
  apply Quiet.expect
  intro importing after
  apply Quiet.accept
  · intro after
    exact (named after).mono fun _ => False.elim
  · exact (named after).mono fun _ => False.elim

end RouteDepot.RouteClass.Parser
