import RouteDepot.Proofs.Recovery.Steady

/-! # Loops that recover

Statements, members, classes and imports are read by loops that recover from their faults. By induction on the levels
that may be opened, a block is thrifty whatever is inside it, so every iteration of these loops moves past at least one
token. A whole source is read up to its end, with no more faults on record than there are tokens.
-/

namespace RouteDepot.RouteClass.Parser

variable {c : Cursor}

/-! ### Statements -/

section Nested

variable {nested : Parser Expression} {nestedBlock : Parser Block} (quiet : ∀ c, Quiet nested c Always)
  (thrifty : ∀ c, Thrifty nestedBlock c)

include quiet thrifty

theorem statement_thrifty : Thrifty (statement nested nestedBlock) c := by
  apply Thrifty.resetLinks
  intro c
  apply Thrifty.get
  split
  · next head => exact Quiet.thrifty (.skip head fun _ => .pure id)
  · exact .map (thrifty c)
  · next head =>
    refine .get (Quiet.thrifty (.skip head fun after => ?_))
    exact .accept (fun _ => .pure id) .fail
  · next head =>
    refine .get (Quiet.thrifty (.skip head fun after => ?_))
    exact (throughSemicolon_quiet quiet (f := fun value semicolon => .throw value ⟨_, semicolon.stop⟩)).mono
      fun _ => False.elim
  · apply Thrifty.get
    split
    · exact (localDeclaration_quiet quiet).thrifty
    · exact (throughSemicolon_quiet quiet (f := fun value _ => .expression value)).thrifty

omit quiet thrifty in
/-- Whether a body ends is told without moving on. -/
theorem Steady.bodyEnds {α : Type} {next : Bool → Parser α} {consumes : α → Prop}
    (ends : Cursor.EndsBody c.next? → Steady (next true) c consumes)
    (goesOn : ¬ Cursor.EndsBody c.next? → Steady (next false) c consumes) :
    Steady (Parser.bodyEnds >>= next) c consumes := by
  rw [Parser.bodyEnds, bind_assoc]
  apply Steady.get
  split
  · next head => exact ends (.inl head)
  · next head => exact ends (.inr head)
  · next notEnd notClosing => exact goesOn fun ended => ended.elim notEnd notClosing

theorem bodyStatement_steady (done : List Statement) (c : Cursor) :
    Steady (bodyStatement nested nestedBlock done) c GoesOn := by
  apply Steady.bodyEnds
  · intro _
    exact .pure (· rfl)
  · exact .recover_append (statement_thrifty quiet thrifty) Cursor.movesOn_afterMember

end Nested

theorem block_thrifty (room : Nat) (c : Cursor) : Thrifty (block room) c := by
  induction room generalizing c with
  | zero => exact Quiet.thrifty .fail
  | succ room ih => exact Steady.braces_thrifty (bodyStatement_steady (expression_quiet room) ih)

/-! ### Members and classes -/

theorem typedMember_thrifty (modifiers : Modifiers) (result : Option TypeName) (c : Cursor) :
    Thrifty (typedMember modifiers result) c := by
  apply Thrifty.bind_moved ident_quiet
  intro name c
  apply Thrifty.bind_quiet (sees_quiet _)
  rintro (_ | _) c
  · simp only [Bool.false_eq_true, ↓reduceIte]
    apply Quiet.thrifty
    split
    · exact .failAt
    · refine .resetLinks fun c => .bind_moving (initialValue_quiet (expression_quiet nestingLimit)) fun _ _ => ?_
      exact .expect fun _ _ => .pure id
  · apply Thrifty.bind_moved parameters_quiet
    intro parameters c
    apply Thrifty.bind_quiet (namesAfter_quiet _)
    intro throws c
    apply Thrifty.accept
    · intro c
      exact .pure id
    · simp only [Bool.false_eq_true, ↓reduceIte, bind_map_left]
      exact .map (block_thrifty nestingLimit c)

theorem member_thrifty (className : String) (c : Cursor) : Thrifty (member className) c := by
  apply Thrifty.bind_quiet modifiers_quiet
  intro modifiers c
  have others (c : Cursor) : Thrifty (member.fieldOrMethod modifiers) c := by
    rw [fieldOrMethod_eq]
    exact .bind_moved resultType_quiet (typedMember_thrifty modifiers)
  apply Thrifty.get
  split
  · exact Quiet.thrifty .fail
  · exact Quiet.thrifty .fail
  · exact Quiet.thrifty .fail
  · split
    · apply Thrifty.bind_moved ident_quiet
      intro name c
      apply Thrifty.bind_moved parameters_quiet
      intro parameters c
      apply Thrifty.bind_quiet (namesAfter_quiet _)
      intro throws c
      exact .map (block_thrifty nestingLimit c)
    · exact others c
  · exact others c

theorem bodyMember_steady (className : String) (done : List Member) (c : Cursor) :
    Steady (bodyMember className done) c GoesOn := by
  apply Steady.bodyEnds
  · intro _
    exact .pure (· rfl)
  · intro free
    apply Steady.accept
    · intro after
      exact .pure id
    · intro _
      exact .recover_append (member_thrifty className c) Cursor.movesOn_afterMember free

theorem classDeclaration_thrifty (c : Cursor) : Thrifty classDeclaration c := by
  have body (modifiers : Modifiers) (name : Ident) (parent : Option DottedName) (start : Nat) (c : Cursor) : Thrifty (do
      let interfaces ← namesAfter .implementsKw
      let _ ← expect (.mark .braceOpen) "'\x7b'"
      let members ← iterate (bodyMember name.name) []
      let closing ← expect (.mark .braceClose) "'\x7d'"
      return ({ modifiers, name, parent, interfaces, members, span := ⟨start, closing.stop⟩ } : ClassDeclaration)) c :=
    .bind_quiet (namesAfter_quiet _) fun _ _ => Steady.braces_thrifty (bodyMember_steady name.name)
  apply Thrifty.get
  apply Thrifty.bind_quiet modifiers_quiet
  intro modifiers c
  apply Thrifty.get
  split
  · next head =>
    refine .bind_moved (skip_quiet head) fun _ c => ?_
    apply Thrifty.bind_moved ident_quiet
    intro name c
    apply Thrifty.bind_quiet (accept_quiet _)
    rintro (_ | _) c
    · exact body modifiers name none _ c
    · simp only [↓reduceIte, bind_map_left]
      exact .bind_moved dottedName_quiet fun parent c => body modifiers name (some parent) _ c
  · exact Quiet.thrifty (.throws rfl)
  · exact Quiet.thrifty (.throws rfl)
  · exact Quiet.thrifty (.throws rfl)

/-! ### Units -/

theorem moreImports_steady (done : List DottedName) (c : Cursor) : Steady (moreImports done) c GoesOn := by
  apply Steady.sees
  · intro head
    exact .recover_append importName_quiet.thrifty Cursor.movesOn_afterDeclaration (by simp [head])
  · intro _
    exact .pure (· rfl)

theorem moreClasses_steady (done : List ClassDeclaration) (c : Cursor) : Steady (moreClasses done) c GoesOn := by
  apply Steady.get
  split
  · exact .pure (· rfl)
  · next more =>
    apply Steady.accept
    · intro after
      exact .pure id
    · intro _
      refine .recover_append (classDeclaration_thrifty c) Cursor.movesOn_afterDeclaration ?_
      simpa [Cursor.next?] using more

theorem packageName_steady (c : Cursor) : Steady (recover packageName Cursor.afterDeclaration) c Never := by
  by_cases head : c.next? = some (.keyword .packageKw)
  · have quiet : Quiet packageName c Always :=
      .accept_of_eq head fun _ => .bind_moved dottedName_quiet fun _ _ => .expect fun _ _ => .pure id
    exact (Steady.recover quiet.thrifty Cursor.movesOn_afterDeclaration (by simp [head])).mono fun _ => False.elim
  · have absent : packageName.run.run c = (.ok none, c) := run_accept_of_ne head _
    exact ⟨_, c, [], [], recover_run absent, .refl, Nat.le_refl _, False.elim⟩

end RouteDepot.RouteClass.Parser
