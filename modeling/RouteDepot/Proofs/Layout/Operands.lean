import RouteDepot.Proofs.Layout.Alignment
import RouteDepot.Proofs.Layout.Tree
import RouteDepot.RouteClass.Lowering.Chain

/-! # Lowering aligned expressions

Lowering looks at what a tree says and not at where it stands. Two lowerings are alike when they have the same value and
the same faults at related spans. Aligned expressions are lowered alike, and so are the arguments of their calls.
-/

namespace RouteDepot.RouteClass

variable {R : Span → Span → Prop}

/-- The same value, or the same absence of one, and the same faults in two places. -/
structure Lowered.Alike {α : Type} (R : Span → Span → Prop) (l l' : Lowered α) : Prop where
  values : l.value? = l'.value?
  faults : List.Forall₂ (Finding.Alike R) l.faults l'.faults

namespace Lowered

variable {α β : Type} {span span' : Span} {fault : SemanticFault}

theorem alike_done (value : α) : (done value).Alike R (done value) := ⟨rfl, .nil⟩

theorem alike_fail (spans : R span span') : (fail span fault : Lowered α).Alike R (fail span' fault) :=
  ⟨rfl, .cons ⟨rfl, spans⟩ .nil⟩

theorem alike_report (spans : R span span') : (report span fault).Alike R (report span' fault) :=
  ⟨rfl, .cons ⟨rfl, spans⟩ .nil⟩

namespace Alike

variable {first first' : Lowered α} {second second' : Lowered β}

theorem bind {next next' : α → Lowered β} (alike : first.Alike R first')
    (later : ∀ value, (next value).Alike R (next' value)) : (first >>= next).Alike R (first' >>= next') := by
  change (first.andThen next).Alike R (first'.andThen next')
  obtain ⟨value?, faults⟩ := first
  obtain ⟨_, faults'⟩ := first'
  obtain ⟨rfl, related⟩ := alike
  cases value? with
  | none => exact ⟨rfl, related⟩
  | some value => exact ⟨(later value).values, List.rel_append related (later value).faults⟩

theorem map (f : α → β) (alike : first.Alike R first') : (f <$> first).Alike R (f <$> first') :=
  alike.bind fun _ => alike_done _

theorem both (left : first.Alike R first') (right : second.Alike R second') :
    (first.both second).Alike R (first'.both second') :=
  ⟨by rw [Lowered.both, Lowered.both, left.values, right.values], List.rel_append left.faults right.faults⟩

theorem all {results results' : List (Lowered α)} (alike : List.Forall₂ (Alike R) results results') :
    (all results).Alike R (Lowered.all results') := by
  induction alike with
  | nil => exact alike_done []
  | cons first _ ih => exact (first.both ih).map _

/-- Lowering the items of related lists one by one. -/
theorem all_map {ι κ : Type} {related : ι → κ → Prop} {items : List ι} {items' : List κ} {lower : ι → Lowered α}
    {lower' : κ → Lowered α} (aligned : List.Forall₂ related items items')
    (each : ∀ item item', related item item' → (lower item).Alike R (lower' item')) :
    (Lowered.all (items.map lower)).Alike R (Lowered.all (items'.map lower')) :=
  all (List.forall₂_map_left_iff.mpr (List.forall₂_map_right_iff.mpr (aligned.imp each)))

theorem attempt (alike : first.Alike R first') : first.attempt.Alike R first'.attempt :=
  ⟨congrArg some alike.values, alike.faults⟩

end Alike

end Lowered

open Lowered (alike_done alike_fail alike_report)

/-! ### Operands -/

theorem Operand.alike_plus {span span' : Span} (spans : R span span') (left right : Operand) :
    (left.plus span right).Alike R (left.plus span' right) := by
  unfold plus
  split
  · exact alike_done _
  · split
    · exact alike_done _
    · exact alike_fail spans

theorem Operand.alike_checkArgument {span span' : Span} (spans : R span span') (method : String)
    (accepted : List ValueType) (operand : Operand) :
    (operand.checkArgument method accepted span).Alike R (operand.checkArgument method accepted span') := by
  unfold checkArgument
  split
  · exact alike_fail spans
  · split
    · exact alike_done _
    · exact alike_fail spans

namespace Ident.Aligned

variable {i j : Ident}

theorem field (idents : i.Aligned R j) (scope : Scope) : (scope.field i).Alike R (scope.field j) := by
  rw [Scope.field, Scope.field, idents.name]
  split
  · exact alike_done _
  · exact alike_fail idents.spans

theorem resolve (idents : i.Aligned R j) (scope : Scope) : (scope.resolve i).Alike R (scope.resolve j) := by
  rw [Scope.resolve, Scope.resolve, idents.name]
  split
  · exact alike_done _
  · exact alike_fail idents.spans
  · exact idents.field scope

end Ident.Aligned

namespace Expression.Aligned

theorem isGetContext_eq {e e' : Expression} (aligned : e.Aligned R e') : e.isGetContext = e'.isGetContext := by
  cases aligned with
  | call callees arguments => rw [isGetContext, isGetContext, callees.name, arguments.isEmpty_eq]
  | callOn targets callees arguments =>
    cases targets with
    | this => rw [isGetContext, isGetContext, callees.name, arguments.isEmpty_eq]
    | _ => rfl
  | _ => rfl

theorem operand {e e' : Expression} (aligned : e.Aligned R e') (scope : Scope) :
    (e.operand scope).Alike R (e'.operand scope) := by
  match aligned with
  | .literal value _ =>
    rw [Expression.operand, Expression.operand]
    exact alike_done _
  | .name idents =>
    rw [Expression.operand, Expression.operand]
    exact idents.resolve scope
  | .this spans =>
    rw [Expression.operand, Expression.operand]
    exact alike_fail spans
  | .field targets members spans =>
    cases targets with
    | this =>
      rw [Expression.operand, Expression.operand]
      exact members.field scope
    | name owners =>
      rw [Expression.operand, Expression.operand, owners.name, members.name]
      split
      · split
        · exact alike_done _
        · exact alike_fail members.spans
      · exact alike_fail spans
    | _ =>
      simp only [Expression.operand]
      exact alike_fail spans
  | .callOn targets callees (.cons argument .nil) spans =>
    rw [Expression.operand, Expression.operand, callees.name, targets.isGetContext_eq]
    split
    · split
      · exact alike_fail spans
      · refine (argument.operand scope).bind fun text => ?_
        exact (Operand.alike_checkArgument argument.spans _ _ _).map _
    · exact alike_fail callees.spans
  | .callOn targets callees .nil spans =>
    simp only [Expression.operand, callees.name, targets.isGetContext_eq]
    split
    · split <;> exact alike_fail spans
    · exact alike_fail callees.spans
  | .callOn targets callees (.cons _ (.cons _ more)) spans =>
    simp only [Expression.operand, callees.name, targets.isGetContext_eq, List.length_cons, more.length_eq]
    split
    · split <;> exact alike_fail spans
    · exact alike_fail callees.spans
  | .call callees _ _ =>
    rw [Expression.operand, Expression.operand, callees.name]
    exact alike_fail callees.spans
  | .new _ _ spans =>
    rw [Expression.operand, Expression.operand]
    exact alike_fail spans
  | .concat lefts rights spans =>
    rw [Expression.operand, Expression.operand]
    exact ((lefts.operand scope).both (rights.operand scope)).bind fun _ => Operand.alike_plus spans _ _
termination_by e

end Expression.Aligned

/-! ### Calls of a chain -/

/-- The same call in two places. -/
structure ChainCall.Aligned (R : Span → Span → Prop) (call call' : ChainCall) : Prop where
  names : call.name.Aligned R call'.name
  arguments : List.Forall₂ (Expression.Aligned R) call.args call'.args
  spans : R call.span call'.span

/-- The calls of two chains, or where what they begin with stands. -/
abbrev ChainCall.SameChain (R : Span → Span → Prop) :
    Except Span (List ChainCall) → Except Span (List ChainCall) → Prop :=
  Except.Rel R (List.Forall₂ (ChainCall.Aligned R))

theorem ChainCall.SameChain.append {calls calls' : Except Span (List ChainCall)} {call call' : ChainCall}
    (same : SameChain R calls calls') (aligned : call.Aligned R call') :
    SameChain R (do return (← calls) ++ [call]) (do return (← calls') ++ [call']) := by
  cases same with
  | ok before => exact .ok (List.rel_append before (.cons aligned .nil))
  | error spans => exact .error spans

theorem Expression.Aligned.chainCalls {e e' : Expression} (aligned : e.Aligned R e') :
    ChainCall.SameChain R e.chainCalls e'.chainCalls := by
  match aligned with
  | .call callees arguments spans => exact .ok (.cons ⟨callees, arguments, spans⟩ .nil)
  | .callOn targets callees arguments spans =>
    have before := targets.chainCalls
    cases targets with
    | this => exact .ok (.cons ⟨callees, arguments, spans⟩ .nil)
    | _ =>
      simp only [Expression.chainCalls] at before ⊢
      exact before.append ⟨callees, arguments, spans⟩
  | .literal _ spans | .this spans | .field _ _ spans | .new _ _ spans | .concat _ _ spans => exact .error spans
  | .name idents => exact .error idents.spans
termination_by e

end RouteDepot.RouteClass
