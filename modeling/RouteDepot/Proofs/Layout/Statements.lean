import RouteDepot.Proofs.Layout.Expressions

/-! # Statements in step

The parsers of types, statements and blocks are in step with themselves, also where they recover from a fault.
-/

namespace RouteDepot.RouteClass

theorem movesAligned_afterMember {m : Alignment} : MovesAligned m Cursor.afterMember :=
  fun _ _ aligned => ⟨aligned.moveTo (aligned.facing.skipMember 0), (aligned.facing.skipMember 0).2⟩

theorem movesAligned_afterDeclaration {m : Alignment} : MovesAligned m Cursor.afterDeclaration :=
  fun _ _ aligned => ⟨aligned.moveTo (aligned.facing.skipDeclaration 0), (aligned.facing.skipDeclaration 0).2⟩

namespace Parser

variable {α β : Type} {m : Alignment} {c d : Cursor}

/-! ### Types -/

theorem typeName_inStep (aligned : c.Aligned m d) :
    InStep m typeName typeName c d fun _ t t' => t.erase = t'.erase := by
  apply (dottedName_inStep aligned).bind
  rintro n k c d aligned _ ⟨same, _⟩
  have types (isArray : Bool) : TypeName.erase ⟨n, isArray⟩ = TypeName.erase ⟨k, isArray⟩ := by
    simp [TypeName.erase, DottedName.erase, same.parts]
  apply InStep.sees aligned
  · intro _
    simp only [↓reduceIte]
    exact .fail_bind aligned
  simp only [Bool.false_eq_true, ↓reduceIte]
  apply InStep.accept aligned
  · intro c d aligned _
    simp only [↓reduceIte]
    apply (InStep.expect aligned).bind
    intro _ _ c d aligned _ _
    exact .pure aligned (types true)
  · simp only [Bool.false_eq_true, ↓reduceIte]
    exact .pure aligned (types false)

/-- Whether a declaration begins depends on what the tokens say only. -/
theorem startsWithType_eq {ahead ahead' : List Token} (kinds : ahead.map Token.kind = ahead'.map Token.kind) :
    startsWithType ahead = startsWithType ahead' := by
  fun_induction startsWithType ahead generalizing ahead' with
  | case1 _ _ _ later ih =>
    obtain ⟨_, _, rfl, dot⟩ := tokens_eq_cons kinds.symm
    obtain ⟨_, _, rfl, more⟩ := tokens_eq_cons dot
    rw [startsWithType]
    exact ih more.symm
  | case2 =>
    obtain ⟨_, _, rfl, name⟩ := tokens_eq_cons kinds.symm
    obtain ⟨_, _, rfl, _⟩ := tokens_eq_cons name
    rw [startsWithType]
  | case3 =>
    obtain ⟨_, _, rfl, opening⟩ := tokens_eq_cons kinds.symm
    obtain ⟨_, _, rfl, closing⟩ := tokens_eq_cons opening
    obtain ⟨_, _, rfl, _⟩ := tokens_eq_cons closing
    rw [startsWithType]
  | case4 ahead noDot noName noArray =>
    rw [startsWithType.eq_def]
    split
    · obtain ⟨_, _, rfl, dot⟩ := tokens_eq_cons kinds
      obtain ⟨_, _, rfl, _⟩ := tokens_eq_cons dot
      exact absurd rfl (noDot _ _ _ _)
    · obtain ⟨_, _, rfl, name⟩ := tokens_eq_cons kinds
      obtain ⟨_, _, rfl, _⟩ := tokens_eq_cons name
      exact absurd rfl (noName _ _ _ _ _)
    · obtain ⟨_, _, rfl, opening⟩ := tokens_eq_cons kinds
      obtain ⟨_, _, rfl, closing⟩ := tokens_eq_cons opening
      obtain ⟨_, _, rfl, _⟩ := tokens_eq_cons closing
      exact absurd rfl (noArray _ _ _ _ _)
    · rfl

theorem startsDeclaration_eq {ahead ahead' : List Token} (kinds : ahead.map Token.kind = ahead'.map Token.kind) :
    startsDeclaration ahead = startsDeclaration ahead' := by
  unfold startsDeclaration
  split
  · obtain ⟨_, _, rfl, _⟩ := tokens_eq_cons kinds.symm
    rfl
  · next notFinal =>
    split
    · obtain ⟨_, _, rfl, _⟩ := tokens_eq_cons kinds
      exact absurd rfl (notFinal _ _)
    · exact startsWithType_eq kinds

/-! ### Statements -/

/-- The same initial value, if there is one. -/
abbrev SameValue (m : Alignment) : Option Expression → Option Expression → Prop :=
  Option.Rel (Expression.Aligned m.Spans)

variable {nested : Parser Expression} {nestedBlock : Parser Block}

theorem initialValue_inStep (keeps : KeepsStep m nested) (aligned : c.Aligned m d) :
    InStep m (initialValue nested) (initialValue nested) c d fun _ => SameValue m := by
  apply InStep.accept aligned
  · intro c d aligned _
    simp only [↓reduceIte]
    apply (keeps c d aligned).bind
    intro e e' c d aligned _ stands
    exact .pure aligned (.some stands.aligned)
  · simp only [Bool.false_eq_true, ↓reduceIte]
    exact .pure aligned .none

theorem localDeclaration_inStep (keeps : KeepsStep m nested) (aligned : c.Aligned m d) :
    InStep m (localDeclaration nested) (localDeclaration nested) c d fun _ => Statement.Aligned m.Spans := by
  apply InStep.optionally aligned
  intro _ c d aligned _
  apply (typeName_inStep aligned).bind
  intro type type' c d aligned _ types
  apply (ident_inStep aligned).bind
  rintro i j c d aligned _ ⟨names, _⟩
  apply (initialValue_inStep keeps aligned).bind
  intro value value' c d aligned _ values
  apply (InStep.expect aligned).bind
  intro _ _ c d aligned _ _
  exact .pure aligned (.declare types names values)

/-- A parser of blocks that is in step with itself. -/
def BlocksKeepStep (m : Alignment) (nestedBlock : Parser Block) : Prop :=
  ∀ c d, c.Aligned m d → InStep m nestedBlock nestedBlock c d fun _ => Block.Aligned m.Spans

theorem statement_inStep (keeps : KeepsStep m nested) (blocks : BlocksKeepStep m nestedBlock)
    (aligned : c.Aligned m d) :
    InStep m (statement nested nestedBlock) (statement nested nestedBlock) c d fun _ => Statement.Aligned m.Spans := by
  apply InStep.resetLinks aligned
  intro c d aligned _
  obtain ⟨spans, apart⟩ := aligned.here
  apply InStep.get
  rw [← aligned.next?_eq]
  split
  · next head =>
    apply InStep.skip aligned head
    intro advanced _ _ _
    exact .pure advanced .empty
  · apply (blocks c d aligned).bind
    intro b b' c d aligned _ same
    exact .pure aligned (.block same.bodies same.spans)
  · next head =>
    apply InStep.get
    apply InStep.skip aligned head
    intro advanced _ _ _
    apply InStep.accept advanced
    · intro c d aligned _
      simp only [↓reduceIte]
      exact .pure aligned (.return spans)
    · simp only [Bool.false_eq_true, ↓reduceIte]
      exact .fail advanced
  · next head =>
    apply InStep.get
    apply InStep.skip aligned head
    intro advanced _ last _
    apply (keeps _ _ advanced).bind
    intro e e' c' d' aligned valued stands
    apply (InStep.expect aligned).bind
    rintro s t c'' d'' aligned _ ⟨closing, behind, _⟩
    have ordered := closing.ordered
    rw [last] at valued
    exact .pure aligned (.throw stands.aligned (spans.upTo closing.stops (by omega)))
  · apply InStep.get
    rw [startsDeclaration_eq aligned.facing.kinds_eq]
    split
    · exact localDeclaration_inStep keeps aligned
    · apply (keeps c d aligned).bind
      intro e e' c d aligned _ stands
      apply (InStep.expect aligned).bind
      intro _ _ c d aligned _ _
      exact .pure aligned (.expression stands.aligned)

/-! ### Blocks -/

theorem InStep.bodyEnds {next : Bool → Parser α} {next' : Bool → Parser β} {V : Nat → α → β → Prop}
    (aligned : c.Aligned m d) (later : ∀ ends, InStep m (next ends) (next' ends) c d V) :
    InStep m (Parser.bodyEnds >>= next) (Parser.bodyEnds >>= next') c d V := by
  simp only [Parser.bodyEnds, bind_assoc]
  apply InStep.get
  rw [← aligned.next?_eq]
  split
  · simpa using later true
  · simpa using later true
  · simpa using later false

/-- Items of which the last one may be missing because of a fault. -/
theorem InStep.recover_append {p : Parser α} {q : Parser β} {moveOn : Cursor → Cursor} {R : α → β → Prop}
    {done : List α} {done' : List β} (moves : MovesAligned m moveOn)
    (inStep : InStep m p q c d fun _ => R) (related : List.Forall₂ R done done') :
    InStep m (do return some (done ++ (← Parser.recover p moveOn).toList))
      (do return some (done' ++ (← Parser.recover q moveOn).toList)) c d fun _ => Option.Rel (List.Forall₂ R) := by
  apply (InStep.recover moves inStep).bind
  intro r s c d aligned _ last
  refine .pure aligned (.some (List.rel_append related ?_))
  cases last with
  | none => exact .nil
  | some same => exact .cons same .nil

theorem bodyStatement_inStep (keeps : KeepsStep m nested) (blocks : BlocksKeepStep m nestedBlock)
    {done done' : List Statement} (aligned : c.Aligned m d)
    (related : List.Forall₂ (Statement.Aligned m.Spans) done done') :
    InStep m (bodyStatement nested nestedBlock done) (bodyStatement nested nestedBlock done') c d fun _ =>
      Option.Rel (List.Forall₂ (Statement.Aligned m.Spans)) := by
  apply InStep.bodyEnds aligned
  rintro (_ | _)
  · simp only [Bool.false_eq_true, ↓reduceIte]
    exact .recover_append movesAligned_afterMember (statement_inStep keeps blocks aligned) related
  · simp only [↓reduceIte]
    exact .pure aligned .none

theorem braced_inStep (keeps : KeepsStep m nested) (blocks : BlocksKeepStep m nestedBlock) :
    BlocksKeepStep m (braced nested nestedBlock) := by
  intro c d aligned
  apply (InStep.expect aligned).bind
  rintro opening opening' c d aligned _ ⟨openings, _, start⟩
  apply (InStep.iterate_related aligned .nil fun _ _ _ _ aligned related =>
    bodyStatement_inStep keeps blocks aligned related).bind
  intro body body' c' d' aligned further bodies
  apply (InStep.expect aligned).bind
  rintro closing closing' c'' d'' aligned _ ⟨closings, behind, _⟩
  have ordered := closings.ordered
  exact .pure aligned ⟨bodies, openings.upTo closings.stops (by omega)⟩

theorem block_inStep (room : Nat) : BlocksKeepStep m (block room) := by
  induction room with
  | zero => exact fun c d aligned => .fail aligned
  | succ room ih => exact braced_inStep (expression_inStep room) ih

end Parser

end RouteDepot.RouteClass
