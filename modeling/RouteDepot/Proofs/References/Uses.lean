import RouteDepot.Proofs.Direct.Statement
import RouteDepot.Proofs.Lookup

/-! # References

Which names the expressions of a body use as values, what is visible where they stand, and when a reference resolves:
a name to a local variable with an initial value, or else to a field of the class, and a member of this instance to a
field. An expression that has an operand, and a chain that has an instruction, hold nothing but references that
resolve.
-/

namespace RouteDepot.RouteClass

/-! ### References and what is visible -/

/-- A name that is used as a value. -/
inductive Reference where
  /-- A name by itself. -/
  | plain (name : String)
  /-- A member of this instance. -/
  | ofThis (name : String)
  deriving DecidableEq, Repr

mutual

/-- The references of an expression; the constants of binding modes are none. -/
def Expression.references : Expression → List Reference
  | .literal _ _ | .this _ => []
  | .name ident => [.plain ident.name]
  | .field (.this _) member => [.ofThis member.name]
  | .field (.name owner) _ => if owner.name = "RestBindingMode" then [] else [.plain owner.name]
  | .field target _ => target.references
  | .call _ args _ => referencesOf args
  | .callOn target _ args _ => target.references ++ referencesOf args
  | .new _ args _ => referencesOf args
  | .concat left right => left.references ++ right.references

/-- The references of several expressions. -/
def referencesOf : List Expression → List Reference
  | [] => []
  | e :: later => e.references ++ referencesOf later

end

theorem referencesOf_eq_flatMap (es : List Expression) : referencesOf es = es.flatMap Expression.references := by
  induction es with
  | nil => rfl
  | cons e later ih => rw [referencesOf, ih, List.flatMap_cons]

/-- What is visible at a place: the fields of the class, and the local variables that were declared before in this
block or in one around it, the last one first, each with whether it has an initial value. -/
structure Visible where
  fields : List String
  locals : List (String × Bool)
  deriving DecidableEq, Repr

/-- A reference resolves to a local variable with an initial value or to a field; a local variable hides the field of
its name. -/
def Reference.Resolves (visible : Visible) : Reference → Prop
  | plain name =>
    visible.locals.lookup name = some true ∨ visible.locals.lookup name = none ∧ name ∈ visible.fields
  | ofThis name => name ∈ visible.fields

instance (visible : Visible) : (r : Reference) → Decidable (r.Resolves visible)
  | .plain _ => inferInstanceAs (Decidable (_ ∨ _ ∧ _))
  | .ofThis name => inferInstanceAs (Decidable (name ∈ visible.fields))

/-- What is visible to the expressions of a scope. -/
def Scope.visible (scope : Scope) : Visible where
  fields := scope.fields.map Prod.fst
  locals := scope.locals.map fun (name, value) => (name, value.isSome)

namespace Scope

variable {scope : Scope}

theorem lookup_visible (locals : List (String × Option Operand)) (name : String) :
    (locals.map fun (name, value) => (name, value.isSome)).lookup name = (locals.lookup name).map Option.isSome := by
  induction locals with
  | nil => rfl
  | cons entry later ih =>
    obtain ⟨key, value⟩ := entry
    rw [List.map_cons, lookup_cons_ite, lookup_cons_ite, ih]
    split <;> rfl

theorem resolves_of_field {name : Ident} {operand : Operand} (found : scope.field name = .done operand) :
    name.name ∈ scope.visible.fields := by
  obtain ⟨value, listed, _⟩ := field_eq_done_iff.mp found
  obtain ⟨before, after, fields, _⟩ := List.lookup_eq_some_iff.mp listed
  simp [visible, fields]

theorem resolves_of_resolve {name : Ident} {operand : Operand} (found : scope.resolve name = .done operand) :
    (Reference.plain name.name).Resolves scope.visible := by
  simp only [Reference.Resolves, visible, lookup_visible]
  obtain hit | ⟨missing, found⟩ := resolve_eq_done_iff.mp found
  · exact .inl (by rw [hit]; rfl)
  · exact .inr ⟨by rw [missing]; rfl, resolves_of_field found⟩

/-- All references among some resolve in a scope. -/
def ResolvesAll (scope : Scope) (references : List Reference) : Prop := ∀ r ∈ references, r.Resolves scope.visible

@[simp] theorem resolvesAll_nil : scope.ResolvesAll [] := List.forall_mem_nil _

theorem resolvesAll_append {first later : List Reference} :
    scope.ResolvesAll (first ++ later) ↔ scope.ResolvesAll first ∧ scope.ResolvesAll later :=
  List.forall_mem_append

end Scope

/-! ### Expressions -/

variable {scope : Scope}

theorem references_of_isGetContext {e : Expression} (isContext : e.isGetContext) : e.references = [] := by
  cases e with
  | call callee args span =>
    simp only [Expression.isGetContext, Bool.and_eq_true, List.isEmpty_iff] at isContext
    simp [Expression.references, isContext.2, referencesOf]
  | callOn target callee args span =>
    cases target with
    | this at' =>
      simp only [Expression.isGetContext, Bool.and_eq_true, List.isEmpty_iff] at isContext
      simp [Expression.references, isContext.2, referencesOf]
    | _ => cases isContext
  | _ => cases isContext

/-- The references of an expression that has an operand resolve. -/
theorem resolvesAll_of_operand {e : Expression} {operand : Operand} (lowered : e.operand scope = .done operand) :
    scope.ResolvesAll e.references := by
  fun_induction Expression.operand scope e generalizing operand with
  | case1 => exact List.forall_mem_nil _
  | case2 name => exact List.forall_mem_singleton.mpr (Scope.resolves_of_resolve lowered)
  | case4 _ member => exact List.forall_mem_singleton.mpr (Scope.resolves_of_field lowered)
  | case5 owner member mode _ =>
    rw [Expression.references, if_pos mode]
    exact List.forall_mem_nil _
  | case3 | case6 | case7 | case8 | case9 | case11 | case12 | case13 | case14 =>
    exact absurd lowered Lowered.fail_ne_done
  | case10 target callee span asks _ arg ih =>
    obtain ⟨text, done, _⟩ := Lowered.bind_eq_done_iff.mp lowered
    simp only [Expression.references, referencesOf, references_of_isGetContext asks.2, List.nil_append, List.append_nil]
    exact ih done
  | case15 left right ihl ihr =>
    simp only [Lowered.bind_eq_done_iff, Lowered.both_eq_done_iff] at lowered
    obtain ⟨⟨l, r⟩, ⟨first, second⟩, _⟩ := lowered
    exact Scope.resolvesAll_append.mpr ⟨ihl first, ihr second⟩

theorem Scope.Gives.resolvesAll {arg : Expression} {accepted : List ValueType} {operand : Operand}
    (gives : scope.Gives arg accepted operand) : scope.ResolvesAll arg.references :=
  resolvesAll_of_operand gives.lowered

theorem resolvesAll_single {arg : Expression} {accepted : List ValueType} {operand : Operand}
    (gives : scope.Gives arg accepted operand) : scope.ResolvesAll (referencesOf [arg]) := by
  simpa [referencesOf] using gives.resolvesAll

/-! ### Chains -/

namespace ChainCall

/-- The references in the arguments of a call. -/
def references (call : ChainCall) : List Reference := referencesOf call.args

variable {call : ChainCall} {next : Option ChainCall}

theorem MakesClause.resolvesAll {clause : ClauseOperand} (made : call.MakesClause scope clause) :
    scope.ResolvesAll call.references := by
  obtain ⟨_, args, gives⟩ := made
  rw [references, args]
  exact resolvesAll_single gives

/-- The references of the clause that a call ends with resolve, whether it follows or is given. -/
theorem EndsWithClause.resolvesAll {rest : List Expression} {clause : ClauseOperand}
    (ends : EndsWithClause scope rest next clause) (paired : rest ≠ [] → next = none) :
    scope.ResolvesAll (referencesOf rest ++ next.toList.flatMap references) := by
  cases ends with
  | follows complete found made =>
    subst complete found
    simpa [referencesOf] using made.resolvesAll
  | given only made =>
    obtain rfl := paired (by simp [only])
    simpa [only, referencesOf, Expression.references, references] using made.resolvesAll

/-- The references of a call on a route, and of the clause that it takes, resolve. -/
theorem SaysOfRoute.resolvesAll {result : Option RouteCall} (said : call.SaysOfRoute scope next result)
    (paired : next.isSome → call.takesNext) : scope.ResolvesAll ((call :: next.toList).flatMap references) := by
  have nextless (takesNone : ¬ call.takesNext) : next = none := by
    cases next with
    | none => rfl
    | some next => exact absurd (paired rfl) takesNone
  cases said with
  | routeId named args gives | description named args gives | autoStartup named args gives
  | sendDynamic named args gives | log named args gives | removeHeader named args gives =>
    obtain rfl := nextless (by simp [takesNext, named])
    simpa [references, args] using resolvesAll_single gives
  | send named gives =>
    obtain rfl := nextless (by simp [takesNext, named])
    intro r member
    simp only [Option.toList_none, List.flatMap_cons, List.flatMap_nil, List.append_nil, references,
      referencesOf_eq_flatMap, List.mem_flatMap] at member
    obtain ⟨arg, listed, member⟩ := member
    obtain ⟨operand, _, gives⟩ := gives.exists_right listed
    exact gives.resolvesAll r member
  | setBody named ends | transform named ends | filter named ends =>
    exact ends.resolvesAll fun given => nextless (by simp [takesNext, named, given])
  | setHeader named args gives ends =>
    have rest := ends.resolvesAll fun given => nextless (by simp [takesNext, named, args, given])
    have whole := Scope.resolvesAll_append.mpr ⟨gives.resolvesAll, rest⟩
    simpa [references, args, referencesOf] using whole
  | «end» named args =>
    obtain rfl := nextless (by simp [takesNext, named])
    simp [references, args, referencesOf]

theorem SaysOfService.resolvesAll {result : Option RestCall} (said : call.SaysOfService scope result) :
    scope.ResolvesAll call.references := by
  cases said with
  | verb _ args | «end» _ args => simp [references, args, referencesOf]
  | verbAt _ args gives | description _ args gives | consumes _ args gives | produces _ args gives
  | send _ args gives =>
    rw [references, args]
    exact resolvesAll_single gives

theorem SaysOfConfiguration.resolvesAll {result : Option ConfigurationCall}
    (said : call.SaysOfConfiguration scope result) : scope.ResolvesAll call.references := by
  cases said with
  | set _ args gives =>
    rw [references, args]
    exact resolvesAll_single gives
  | property _ args key value =>
    have whole := Scope.resolvesAll_append.mpr ⟨key.resolvesAll, value.resolvesAll⟩
    simpa [references, args, referencesOf] using whole
  | «end» _ args => simp [references, args, referencesOf]

theorem resolvesAll_of_optional {accepted : List ValueType} {operand? : Option Operand}
    (lowered : call.optional scope accepted = .done operand?) : scope.ResolvesAll call.references := by
  obtain ⟨args, _⟩ | ⟨arg, operand, args, _, gives⟩ := optional_eq_done_iff.mp lowered
  · simp [references, args, referencesOf]
  · rw [references, args]
    exact resolvesAll_single gives

end ChainCall

/-- What holds of the references of every item holds of those of all items. -/
theorem resolvesAll_of_forall₂ {α β : Type} {references : α → List Reference} {lowers : α → β → Prop} {items : List α}
    {results : List β} (related : List.Forall₂ lowers items results)
    (resolves : ∀ item ∈ items, ∀ result, lowers item result → scope.ResolvesAll (references item)) :
    scope.ResolvesAll (items.flatMap references) := by
  intro r member
  obtain ⟨item, listed, member⟩ := List.mem_flatMap.mp member
  obtain ⟨result, _, lowered⟩ := related.exists_right listed
  exact resolves item listed result lowered r member

/-- The references in the calls of a chain that has an instruction resolve. -/
theorem resolvesAll_of_lowerChain {first : ChainCall} {later : List ChainCall} {instruction : Instruction}
    (lowered : lowerChain scope first later = .done instruction) :
    scope.ResolvesAll ((first :: later).flatMap ChainCall.references) := by
  rw [List.flatMap_cons, Scope.resolvesAll_append]
  obtain ⟨_, ⟨args, _, rfl, _⟩ | ⟨_, ⟨_, lowered⟩ | ⟨_, lowered⟩ | ⟨_, lowered⟩⟩⟩ := lowerChain_eq_done lowered
  · simp [ChainCall.references, args, referencesOf]
  · obtain ⟨origin, calls, begun, related, _⟩ := lowerRoute_eq_done_iff.mp lowered
    obtain ⟨arg, args, gives⟩ := ChainCall.single_eq_done_iff.mp begun
    refine ⟨by rw [ChainCall.references, args]; exact resolvesAll_single gives, ?_⟩
    -- The calls are looked at in pairs, each with the clause that it takes.
    rw [← Direct.flatMap_withClauses later, List.flatMap_assoc]
    refine resolvesAll_of_forall₂ related fun pair listed result done => ?_
    exact (ChainCall.saysOfRoute_of_routeCall done).resolvesAll (Direct.takesNext_of_withClauses pair listed)
  · obtain ⟨path, calls, begun, related, _⟩ := lowerRest_eq_done_iff.mp lowered
    refine ⟨ChainCall.resolvesAll_of_optional begun, resolvesAll_of_forall₂ related fun call _ result done => ?_⟩
    exact (ChainCall.saysOfService_of_restCall done).resolvesAll
  · obtain ⟨component, calls, begun, related, _⟩ := lowerRestConfiguration_eq_done_iff.mp lowered
    refine ⟨ChainCall.resolvesAll_of_optional begun, resolvesAll_of_forall₂ related fun call _ result done => ?_⟩
    exact (ChainCall.saysOfConfiguration_of_configurationCall done).resolvesAll

/-- The references of a chain are those of its calls. -/
theorem references_of_chainCalls {e : Expression} {calls : List ChainCall} (chain : e.chainCalls = .ok calls) :
    e.references = calls.flatMap ChainCall.references := by
  fun_induction Expression.chainCalls e generalizing calls with
  | case1 callee args span =>
    obtain rfl := Except.ok.inj chain
    simp [Expression.references, ChainCall.references]
  | case2 at' callee args span =>
    obtain rfl := Except.ok.inj chain
    simp [Expression.references, ChainCall.references]
  | case3 target callee args span _ ih =>
    obtain ⟨before, inner, same⟩ := Except.bind_eq_ok_iff.mp chain
    obtain rfl := Except.ok.inj same
    simp [Expression.references, ih inner, ChainCall.references]
  | case4 => cases chain

/-- The references of a statement that has an instruction resolve. -/
theorem resolvesAll_of_instruction {e : Expression} {instruction : Instruction}
    (lowered : e.instruction scope = .done instruction) : scope.ResolvesAll e.references := by
  obtain ⟨first, later, chain, lowered⟩ := Expression.instruction_eq_done lowered
  rw [references_of_chainCalls chain]
  exact resolvesAll_of_lowerChain lowered

end RouteDepot.RouteClass
