import RouteDepot.Proofs.Layout.Statements
import RouteDepot.Proofs.Printing.Declarations

/-! # Declarations in step

The parsers of modifiers, members, classes and whole sources are in step with themselves. A source is therefore parsed
to the same unit in every layout of its tokens, or not at all because of the same faults in the same order.
-/

namespace RouteDepot.RouteClass

variable {α β : Type} {m : Alignment} {c d : Cursor}

namespace Parser

/-! ### Modifiers -/

theorem skipArguments_inStep (aligned : c.Aligned m d) :
    InStep m skipArguments skipArguments c d fun _ _ _ => True := by
  apply InStep.sees aligned
  · intro _
    simp only [↓reduceIte]
    apply InStep.get
    have reaches := aligned.facing.skipParens? 0
    generalize skipParens? 0 c.ahead = r, skipParens? 0 d.ahead = s at reaches
    cases reaches with
    | none =>
      have ended := aligned.moveTo aligned.facing.skipAll
      exact .moves rfl rfl aligned.facing.skipAll.2 (.failExpected ended)
    | some reaches => exact .ok (aligned.moveTo reaches) reaches.2 trivial
  · simp only [Bool.false_eq_true, ↓reduceIte]
    exact .pure aligned trivial

theorem atName_inStep (aligned : c.Aligned m d) :
    InStep m atName atName c d fun _ n k => n.erase = k.erase := by
  apply (InStep.expect aligned).bind
  intro _ _ c d aligned _ _
  apply (dottedName_inStep aligned).bind
  rintro n k c d aligned _ ⟨same, _⟩
  apply (skipArguments_inStep aligned).bind
  intro _ _ c d aligned _ _
  refine .pure aligned ?_
  rw [DottedName.erase, DottedName.erase, same.parts]

theorem erase_annotated {a b : Modifiers} {n k : DottedName} (same : a.erase = b.erase) (names : n.erase = k.erase) :
    Modifiers.erase { a with annotations := a.annotations ++ [n] } =
      Modifiers.erase { b with annotations := b.annotations ++ [k] } := by
  obtain ⟨_, _, _, _, _, _, _⟩ := a
  obtain ⟨_, _, _, _, _, _, _⟩ := b
  simp only [Modifiers.erase, Modifiers.mk.injEq, List.map_append, List.map_cons, List.map_nil, names] at same ⊢
  simp only [same, true_and]

/-- A word is added to the same modifiers in the same way. -/
theorem withWord?_erase {a b : Modifiers} (same : a.erase = b.erase) (k : Keyword) :
    Option.Rel (fun a b : Modifiers => a.erase = b.erase) (withWord? a k) (withWord? b k) := by
  obtain ⟨_, _, _, _, _, _, _⟩ := a
  obtain ⟨_, _, _, _, _, _, _⟩ := b
  simp only [Modifiers.erase, Modifiers.mk.injEq] at same
  unfold withWord?
  split
  iterate 6 exact .some (by simp only [Modifiers.erase, same])
  exact .none

theorem modifiers_inStep (aligned : c.Aligned m d) :
    InStep m modifiers modifiers c d fun _ a b => a.erase = b.erase := by
  apply InStep.iterate_related (R := fun a b : Modifiers => a.erase = b.erase) aligned rfl
  intro a b c d aligned same
  apply InStep.get
  rw [← aligned.next?_eq]
  split
  · apply (atName_inStep aligned).bind
    intro n k c d aligned _ names
    exact .pure aligned (.some (erase_annotated same names))
  · next k head =>
    have more := withWord?_erase same k
    generalize withWord? a k = r, withWord? b k = s at more
    cases more with
    | none => exact .pure aligned .none
    | some same =>
      apply InStep.skip aligned head
      intro advanced _ _ _
      exact .pure advanced (.some same)
  · exact .pure aligned .none

/-! ### Members -/

theorem parameter_inStep (aligned : c.Aligned m d) :
    InStep m parameter parameter c d fun _ a b => a.erase = b.erase := by
  apply InStep.optionally aligned
  intro _ c d aligned _
  apply (typeName_inStep aligned).bind
  intro t t' c d aligned _ types
  apply (ident_inStep aligned).bind
  rintro i j c d aligned _ ⟨names, _⟩
  refine .pure aligned ?_
  rw [Parameter.erase, Parameter.erase, types, Ident.erase, Ident.erase, names.name]

theorem parameters_inStep (aligned : c.Aligned m d) :
    InStep m parameters parameters c d fun _ a b => a.map Parameter.erase = b.map Parameter.erase := by
  rw [parameters_eq]
  apply (enclosed_inStep aligned fun _ _ aligned => parameter_inStep aligned).imp
  intro _ a b _ related
  exact (map_eq_of_forall₂ (related.imp fun _ _ same => same.symm)).symm

theorem namesAfter_inStep (word : Keyword) (aligned : c.Aligned m d) :
    InStep m (namesAfter word) (namesAfter word) c d fun _ => List.Forall₂ (DottedName.Aligned m.Spans) := by
  apply InStep.accept aligned
  · intro c d aligned _
    simp only [↓reduceIte]
    exact commaSeparated_inStep aligned fun c d aligned => (dottedName_inStep aligned).imp fun _ _ _ _ named => named.1
  · simp only [Bool.false_eq_true, ↓reduceIte]
    exact .pure aligned .nil

theorem resultType_inStep (aligned : c.Aligned m d) :
    InStep m resultType resultType c d fun _ r s => r.map TypeName.erase = s.map TypeName.erase := by
  apply InStep.accept aligned
  · intro c d aligned _
    simp only [↓reduceIte]
    exact .pure aligned rfl
  · simp only [Bool.false_eq_true, ↓reduceIte]
    exact .map ((typeName_inStep aligned).imp fun _ _ _ _ types => congrArg some types)

theorem typedMember_inStep {a b : Modifiers} {r s : Option TypeName} (modifiers : a.erase = b.erase)
    (results : r.map TypeName.erase = s.map TypeName.erase) (aligned : c.Aligned m d) :
    InStep m (typedMember a r) (typedMember b s) c d fun _ => Member.Aligned m.Spans := by
  apply (ident_inStep aligned).bind
  rintro i j c d aligned _ ⟨names, _⟩
  apply InStep.sees aligned
  · intro _
    simp only [↓reduceIte]
    apply (parameters_inStep aligned).bind
    intro list list' c d aligned _ parameters
    apply (namesAfter_inStep .throwsKw aligned).bind
    intro throws throws' c d aligned _ _
    apply InStep.accept aligned
    · intro c d aligned _
      simp only [↓reduceIte]
      exact .pure aligned (.method ⟨modifiers, results, names, parameters, .none⟩)
    · simp only [Bool.false_eq_true, ↓reduceIte, bind_map_left]
      apply (block_inStep nestingLimit c d aligned).bind
      intro body body' c d aligned _ bodies
      exact .pure aligned (.method ⟨modifiers, results, names, parameters, .some bodies⟩)
  · simp only [Bool.false_eq_true, ↓reduceIte]
    cases r with
    | none =>
      obtain rfl : s = none := Option.map_eq_none_iff.mp results.symm
      exact .failAt aligned names.spans
    | some type =>
      obtain ⟨type', rfl, types⟩ := Option.map_eq_some_iff.mp results.symm
      apply InStep.resetLinks aligned
      intro c d aligned _
      apply (initialValue_inStep (expression_inStep nestingLimit) aligned).bind
      intro value value' c d aligned _ values
      apply (InStep.expect aligned).bind
      intro _ _ c d aligned _ _
      exact .pure aligned (.field ⟨types.symm, names, values⟩)

theorem fieldOrMethod_inStep {a b : Modifiers} (modifiers : a.erase = b.erase) (aligned : c.Aligned m d) :
    InStep m (member.fieldOrMethod a) (member.fieldOrMethod b) c d fun _ => Member.Aligned m.Spans := by
  rw [fieldOrMethod_eq, fieldOrMethod_eq]
  apply (resultType_inStep aligned).bind
  intro r s c d aligned _ results
  exact typedMember_inStep modifiers results aligned

theorem member_inStep {className : String} (aligned : c.Aligned m d) :
    InStep m (member className) (member className) c d fun _ => Member.Aligned m.Spans := by
  apply (modifiers_inStep aligned).bind
  intro a b c d aligned _ modifiers
  have others := fieldOrMethod_inStep modifiers aligned
  have kinds := aligned.facing.kinds_eq
  apply InStep.get
  split
  iterate 3
    next ahead =>
      rw [ahead] at kinds
      obtain ⟨_, _, ahead', _⟩ := tokens_eq_cons kinds.symm
      simp only [ahead']
      exact .fail aligned
  · next word _ _ _ ahead =>
    rw [ahead] at kinds
    obtain ⟨_, _, ahead', more⟩ := tokens_eq_cons kinds.symm
    obtain ⟨_, _, rfl, _⟩ := tokens_eq_cons more
    simp only [ahead']
    split
    · apply (ident_inStep aligned).bind
      rintro i j c d aligned _ ⟨names, _⟩
      apply (parameters_inStep aligned).bind
      intro list list' c d aligned _ parameters
      apply (namesAfter_inStep .throwsKw aligned).bind
      intro throws throws' c d aligned _ _
      apply (block_inStep nestingLimit c d aligned).bind
      intro body body' c d aligned _ bodies
      exact .pure aligned (.constructor ⟨names, parameters, bodies⟩)
    · exact others
  · next noClass noInterface noEnum noCall =>
    split
    · next ahead' =>
      rw [ahead'] at kinds
      obtain ⟨_, _, ahead, _⟩ := tokens_eq_cons kinds
      exact absurd ahead (noClass _ _)
    · next ahead' =>
      rw [ahead'] at kinds
      obtain ⟨_, _, ahead, _⟩ := tokens_eq_cons kinds
      exact absurd ahead (noInterface _ _)
    · next ahead' =>
      rw [ahead'] at kinds
      obtain ⟨_, _, ahead, _⟩ := tokens_eq_cons kinds
      exact absurd ahead (noEnum _ _)
    · next ahead' =>
      rw [ahead'] at kinds
      obtain ⟨_, _, ahead, more⟩ := tokens_eq_cons kinds
      obtain ⟨_, _, rfl, _⟩ := tokens_eq_cons more
      exact absurd ahead (noCall _ _ _ _)
    · exact others

/-! ### Classes -/

theorem bodyMember_inStep {className : String} {done done' : List Member} (aligned : c.Aligned m d)
    (related : List.Forall₂ (Member.Aligned m.Spans) done done') :
    InStep m (bodyMember className done) (bodyMember className done') c d fun _ =>
      Option.Rel (List.Forall₂ (Member.Aligned m.Spans)) := by
  apply InStep.bodyEnds aligned
  rintro (_ | _)
  · simp only [Bool.false_eq_true, ↓reduceIte]
    apply InStep.accept aligned
    · intro c d aligned _
      simp only [↓reduceIte]
      exact .pure aligned (.some related)
    · simp only [Bool.false_eq_true, ↓reduceIte]
      exact .recover_append movesAligned_afterMember (member_inStep aligned) related
  · simp only [↓reduceIte]
    exact .pure aligned .none

/-- A class may extend another one. -/
theorem InStep.extends {next : Option DottedName → Parser α} {next' : Option DottedName → Parser β}
    {V : Nat → α → β → Prop} (aligned : c.Aligned m d)
    (later : ∀ r s c' d', c'.Aligned m d' → c.last.stop ≤ c'.last.stop → Option.Rel (DottedName.Aligned m.Spans) r s →
      InStep m (next r) (next' s) c' d' V) :
    InStep m (do if ← Parser.accept (.keyword .extendsKw) then (do next (← some <$> dottedName)) else next none)
      (do if ← Parser.accept (.keyword .extendsKw) then (do next' (← some <$> dottedName)) else next' none) c d V := by
  apply InStep.accept aligned
  · intro c' d' aligned forth
    simp only [↓reduceIte, bind_map_left]
    apply (dottedName_inStep aligned).bind
    rintro n k c'' d'' aligned further ⟨names, _⟩
    exact later (some n) (some k) c'' d'' aligned (Nat.le_trans forth further) (.some names)
  · exact later none none c d aligned (Nat.le_refl _) .none

theorem classDeclaration_inStep (aligned : c.Aligned m d) :
    InStep m classDeclaration classDeclaration c d fun _ => ClassDeclaration.Aligned m.Spans := by
  apply InStep.get
  apply (modifiers_inStep aligned).bind
  intro a b c d aligned _ modifiers
  apply InStep.get
  rw [← aligned.next?_eq]
  split
  · next head =>
    apply InStep.skip aligned head
    intro advanced _ _ _
    apply (ident_inStep advanced).bind
    rintro i j c d aligned _ ⟨names, _⟩
    apply InStep.extends aligned
    intro r s c d aligned _ parents
    apply (namesAfter_inStep .implementsKw aligned).bind
    intro interfaces interfaces' c d aligned _ implemented
    apply (InStep.expect aligned).bind
    intro _ _ c d aligned _ _
    rw [names.name]
    apply (InStep.iterate_related aligned .nil fun _ _ _ _ aligned related => bodyMember_inStep aligned related).bind
    intro list list' c d aligned _ members
    apply (InStep.expect aligned).bind
    intro _ _ c d aligned _ _
    exact .pure aligned ⟨modifiers, names, parents, implemented, members⟩
  · exact .fail_bind aligned
  · exact .fail_bind aligned
  · exact .failExpected_bind aligned

/-! ### Units -/

theorem packageName_inStep (aligned : c.Aligned m d) :
    InStep m packageName packageName c d fun _ => Option.Rel (DottedName.Aligned m.Spans) := by
  apply InStep.accept aligned
  · intro c d aligned _
    simp only [↓reduceIte]
    apply (dottedName_inStep aligned).bind
    rintro n k c d aligned _ ⟨names, _⟩
    apply (InStep.expect aligned).bind
    intro _ _ c d aligned _ _
    exact .pure aligned (.some names)
  · simp only [Bool.false_eq_true, ↓reduceIte]
    exact .pure aligned .none

theorem importName_inStep (aligned : c.Aligned m d) :
    InStep m importName importName c d fun _ _ _ => True := by
  apply (InStep.expect aligned).bind
  intro _ _ c d aligned _ _
  apply InStep.optionally aligned
  intro _ c d aligned _
  apply (dottedName_inStep aligned).bind
  intro n k c d aligned _ _
  have closing {n k : DottedName} {c d : Cursor} (aligned : c.Aligned m d) :
      InStep m (do let _ ← expect (.mark .semicolon) "';'"; return n)
        (do let _ ← expect (.mark .semicolon) "';'"; return k) c d fun _ _ _ => True :=
    (InStep.expect aligned).bind fun _ _ _ _ aligned _ _ => .pure aligned trivial
  apply InStep.accept aligned
  · intro c d aligned _
    simp only [↓reduceIte]
    apply (InStep.expect aligned).bind
    intro _ _ c d aligned _ _
    exact closing aligned
  · simp only [Bool.false_eq_true, ↓reduceIte]
    exact closing aligned

theorem moreImports_inStep {done done' : List DottedName} (aligned : c.Aligned m d) :
    InStep m (moreImports done) (moreImports done') c d fun _ => Option.Rel fun _ _ => True := by
  apply InStep.sees aligned
  · intro _
    simp only [↓reduceIte]
    apply (InStep.recover movesAligned_afterDeclaration (importName_inStep aligned)).bind
    intro _ _ c d aligned _ _
    exact .pure aligned (.some trivial)
  · simp only [Bool.false_eq_true, ↓reduceIte]
    exact .pure aligned .none

theorem moreClasses_inStep {done done' : List ClassDeclaration} (aligned : c.Aligned m d)
    (related : List.Forall₂ (ClassDeclaration.Aligned m.Spans) done done') :
    InStep m (moreClasses done) (moreClasses done') c d fun _ =>
      Option.Rel (List.Forall₂ (ClassDeclaration.Aligned m.Spans)) := by
  have same : c.ahead.isEmpty = d.ahead.isEmpty := by
    simpa using congrArg List.isEmpty aligned.facing.kinds_eq
  apply InStep.get
  rw [← same]
  split
  · exact .pure aligned .none
  apply InStep.accept aligned
  · intro c d aligned _
    simp only [↓reduceIte]
    exact .pure aligned (.some related)
  · simp only [Bool.false_eq_true, ↓reduceIte]
    exact .recover_append movesAligned_afterDeclaration (classDeclaration_inStep aligned) related

theorem sourceUnit_inStep (aligned : c.Aligned m d) :
    InStep m sourceUnit sourceUnit c d fun _ => SourceUnit.Aligned m.Spans := by
  apply (InStep.recover movesAligned_afterDeclaration (packageName_inStep aligned)).bind
  intro r s c d aligned _ packages
  apply (InStep.iterate_related (R := fun _ _ => True) aligned trivial fun _ _ _ _ aligned _ =>
    moreImports_inStep aligned).bind
  intro _ _ c d aligned _ _
  apply (InStep.iterate_related aligned .nil fun _ _ _ _ aligned related => moreClasses_inStep aligned related).bind
  intro classes classes' c d aligned _ related
  refine .pure aligned ⟨?_, related⟩
  cases packages with
  | none => exact .none
  | some packages => exact packages

end Parser

end RouteDepot.RouteClass
