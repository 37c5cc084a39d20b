import RouteDepot.Proofs.Lowering.Operand
import RouteDepot.RouteClass.Lowering.Body

/-! # Faults explain what is missing

Whatever is lowered comes with a value or with a fault that says why it has none. A body without faults therefore has
an instruction for every statement that asks for one.
-/

namespace RouteDepot.RouteClass

namespace Lowered

variable {α β : Type}

theorem Explained.map {result : Lowered α} (f : α → β) (explained : result.Explained) : (f <$> result).Explained :=
  explained.bind fun _ => explained_done _

theorem Explained.all {results : List (Lowered α)} (explained : ∀ result ∈ results, result.Explained) :
    (all results).Explained := by
  induction results with
  | nil => exact explained_done _
  | cons first later ih =>
    rw [List.forall_mem_cons] at explained
    exact (explained.1.both (ih explained.2)).map _

end Lowered

open Lowered (explained_done explained_fail)

theorem Scope.explained_argument (scope : Scope) (method : String) (accepted : List ValueType) (arg : Expression) :
    (scope.argument method accepted arg).Explained :=
  (arg.explained_operand scope).bind fun _ => Operand.decided_checkArgument.explained

namespace ChainCall

variable (call : ChainCall) (scope : Scope)

theorem explained_single (accepted : List ValueType) : (call.single scope accepted).Explained := by
  unfold single
  split
  · exact scope.explained_argument _ _ _
  · exact explained_fail

theorem explained_optional (accepted : List ValueType) : (call.optional scope accepted).Explained := by
  unfold optional
  split
  · exact explained_done _
  · exact (scope.explained_argument _ _ _).map _
  · exact explained_fail

theorem explained_texts : (call.texts scope).Explained := by
  unfold texts
  split
  · exact explained_fail
  · exact .all fun _ member => by
      obtain ⟨arg, _, rfl⟩ := List.mem_map.mp member
      exact scope.explained_argument _ _ _

theorem explained_textPair : (call.textPair scope).Explained := by
  unfold textPair
  split
  · exact (scope.explained_argument _ _ _).both (scope.explained_argument _ _ _)
  · exact explained_fail

theorem explained_arguments (accepted : List (List ValueType)) : (call.arguments scope accepted).Explained := by
  unfold arguments
  split
  · refine .all fun _ member => ?_
    obtain ⟨⟨arg, types⟩, _, rfl⟩ := List.mem_map.mp member
    exact scope.explained_argument _ _ _
  · exact explained_fail

theorem explained_close {α : Type} : (call.close scope : Lowered (Option α)).Explained :=
  (call.explained_arguments scope []).map _

theorem explained_clause : (call.clause scope).Explained := by
  unfold clause
  split
  · exact (call.explained_single scope _).map _
  · exact explained_fail

theorem explained_trailingClause (next : Option ChainCall) : (call.trailingClause scope next).Explained := by
  cases next with
  | none => exact explained_fail
  | some next => exact next.explained_clause scope

theorem explained_inlineClause (arg : Expression) : (call.inlineClause scope arg).Explained := by
  unfold inlineClause
  split
  · exact explained_clause _ scope
  · exact explained_fail

theorem explained_onlyClause (next : Option ChainCall) : (call.onlyClause scope next).Explained := by
  unfold onlyClause
  split
  · exact call.explained_trailingClause scope next
  · exact call.explained_inlineClause scope _
  · exact explained_fail

theorem explained_headerClause (next : Option ChainCall) : (call.headerClause scope next).Explained := by
  unfold headerClause
  split
  · exact explained_fail
  · exact (scope.explained_argument _ _ _).both (call.explained_trailingClause scope next)
  · exact (scope.explained_argument _ _ _).both (call.explained_inlineClause scope _)
  · exact (scope.explained_argument _ _ _).both explained_fail

theorem explained_routeCall (next : Option ChainCall) : (call.routeCall scope next).Explained := by
  unfold routeCall
  split
  iterate 3 exact ((call.explained_single scope _).map _).map _
  · exact ((call.explained_texts scope).map _).map _
  iterate 3 exact ((call.explained_single scope _).map _).map _
  iterate 3 exact ((call.explained_onlyClause scope next).map _).map _
  · exact (call.explained_headerClause scope next).map _
  · exact call.explained_close scope
  · exact explained_fail

theorem explained_restCall : (call.restCall scope).Explained := by
  unfold restCall
  split
  · exact ((call.explained_optional scope _).map _).map _
  · split
    iterate 4 exact ((call.explained_single scope _).map _).map _
    · exact call.explained_close scope
    · exact explained_fail

theorem explained_configurationCall : (call.configurationCall scope).Explained := by
  unfold configurationCall
  split
  · exact ((call.explained_single scope _).map _).map _
  · exact (call.explained_textPair scope).map _
  · split
    · exact call.explained_close scope
    · exact explained_fail

end ChainCall

section Chains

variable (scope : Scope) (first : ChainCall) (later : List ChainCall)

theorem explained_lowerRoute : (lowerRoute scope first later).Explained := by
  refine (first.explained_single scope _).bind fun _ => .bind (.all fun _ member => ?_) fun _ => explained_done _
  obtain ⟨⟨call, next⟩, _, rfl⟩ := List.mem_map.mp member
  exact call.explained_routeCall scope next

theorem explained_lowerRest : (lowerRest scope first later).Explained := by
  refine (first.explained_optional scope _).bind fun _ => .bind (.all fun _ member => ?_) fun _ => explained_done _
  obtain ⟨call, _, rfl⟩ := List.mem_map.mp member
  exact call.explained_restCall scope

theorem explained_lowerRestConfiguration : (lowerRestConfiguration scope first later).Explained := by
  refine (first.explained_optional scope _).bind fun _ => .bind (.all fun _ member => ?_) fun _ => explained_done _
  obtain ⟨call, _, rfl⟩ := List.mem_map.mp member
  exact call.explained_configurationCall scope

theorem explained_lowerInvocation : (lowerInvocation scope first later).Explained := by
  unfold lowerInvocation
  extract_lets name
  split
  · exact explained_fail
  · split
    · exact explained_fail
    · cases later with
      | nil => exact explained_done _
      | cons next => exact explained_fail

theorem explained_lowerChain : (lowerChain scope first later).Explained := by
  unfold lowerChain
  extract_lets name definition
  have explained {lower : Scope → ChainCall → List ChainCall → Lowered Instruction}
      (clean : (lower scope first later).Explained) : (definition lower).Explained := by
    unfold definition
    split
    · exact explained_fail
    · exact clean
  clear_value name definition
  split
  · exact explained_lowerInvocation scope first later
  · split
    · exact explained (explained_lowerRoute scope first later)
    · exact explained (explained_lowerRest scope first later)
    · exact explained (explained_lowerRestConfiguration scope first later)
    · exact explained_fail
    · exact explained_fail

end Chains

theorem Expression.explained_instruction (scope : Scope) (e : Expression) : (e.instruction scope).Explained := by
  unfold instruction
  split
  · exact explained_lowerChain scope _ _
  · exact explained_fail
  · split
    · split
      · exact explained_fail
      · exact explained_fail
    · exact explained_fail

theorem explained_exceptionMessage (scope : Scope) (arg : Expression) : (exceptionMessage scope arg).Explained := by
  refine (arg.explained_operand scope).bind fun operand => ?_
  split
  · exact explained_done _
  · split
    · exact explained_done _
    · exact explained_fail

theorem explained_lowerThrow (scope : Scope) (value : Expression) (span : Span) :
    (lowerThrow scope value span).Explained := by
  unfold lowerThrow
  split
  · split
    · exact explained_done _
    iterate 2 exact (explained_exceptionMessage scope _).map _
    · exact explained_fail
  · exact explained_fail

theorem explained_checkValue (type : TypeName) (span : Span) (found : ValueType) :
    (type.checkValue span found).Explained := by
  unfold TypeName.checkValue
  split
  · exact explained_done _
  · split
    · exact explained_done _
    · exact fun clean => absurd clean (List.cons_ne_nil _ _)

theorem explained_localValue (scope : Scope) (type : TypeName) (value : Expression) :
    (localValue scope type value).Explained := by
  refine Lowered.Explained.bind (fun clean => ⟨_, Lowered.attempt_eq_done_iff.mpr ⟨rfl, clean⟩⟩) fun operand? => ?_
  split
  · exact explained_done _
  · exact (explained_checkValue type _ _).bind fun _ => explained_done _

theorem explained_lowerDeclaration (scope : Scope) (type : TypeName) (name : Ident) (value : Option Expression) :
    (lowerDeclaration scope type name value).Explained := by
  unfold lowerDeclaration
  split
  · exact explained_fail
  · split
    · exact explained_done _
    · exact .map _ (explained_localValue scope type _)

end RouteDepot.RouteClass
