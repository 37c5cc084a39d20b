import RouteDepot.Proofs.Concatenation.Canonical
import RouteDepot.Proofs.Safety.Arguments

/-! # Operands that lowering builds

Lowering looks at expressions in scopes that begin without local variables and go on from one statement to the next,
whether or not the statements have faults. The operands that it builds are those of expressions in such scopes; all of
them are canonical. The arguments in a program that compiles are among them.
-/

namespace RouteDepot.RouteClass

/-- The scopes in which lowering looks at expressions. A field, and the first statement of a constructor or of a method,
have no local variables in reach; each statement leaves the local variables to the next one. -/
inductive Scope.Reached : Scope → Prop
  | start {scope : Scope} (undeclared : scope.locals = []) : Reached scope
  | after {scope : Scope} (s : Statement) (before : Reached scope) :
      Reached { scope with locals := (s.lower scope).locals }

/-- The operands that lowering builds: those of expressions in the scopes that it reaches. -/
def Operand.Built (operand : Operand) : Prop :=
  ∃ (scope : Scope) (e : Expression), scope.Reached ∧ (e.operand scope).value? = some operand

/-! ### Local variables -/

/-- The local variables of a scope stand for canonical operands. -/
def Scope.LocalsCanonical (scope : Scope) : Prop :=
  ∀ name operand, scope.locals.lookup name = some (some operand) → operand.Canonical

namespace Scope.LocalsCanonical

variable {scope : Scope}

/-- In a scope with canonical local variables, expressions have canonical operands. -/
theorem operand (canonical : scope.LocalsCanonical) {e : Expression} {operand : Operand}
    (lowered : (e.operand scope).value? = some operand) : operand.Canonical :=
  Expression.operand_closed Operand.Canonical.const (fun _ _ => .placeholders)
    (fun _ _ left right => (Operand.canonical_append_and_parts left right).1) canonical
    ((e.decided_operand scope).eq_done lowered)

/-- A local variable is declared with a canonical operand, also when its value has a fault. -/
theorem localValue (canonical : scope.LocalsCanonical) {type : TypeName} {value : Expression} {operand : Operand}
    (declared : (localValue scope type value).value? = some operand) : operand.Canonical := by
  obtain ⟨found, attempted, declared⟩ := Lowered.value?_bind_eq_some_iff.mp declared
  obtain rfl := Option.some.inj attempted
  split at declared
  · obtain rfl := Option.some.inj declared
    exact .const _
  · next initial lowered =>
    obtain ⟨_, _, declared⟩ := Lowered.value?_bind_eq_some_iff.mp declared
    obtain rfl := Option.some.inj declared
    exact canonical.operand lowered

theorem declaration (canonical : scope.LocalsCanonical) {type : TypeName} {name : Ident} {value : Option Expression}
    {locals : List (String × Option Operand)}
    (declared : (lowerDeclaration scope type name value).value? = some locals) :
    LocalsCanonical { scope with locals } := by
  unfold lowerDeclaration at declared
  split at declared
  · cases declared
  · split at declared
    · obtain rfl := Option.some.inj declared
      exact forall_lookup_cons nofun canonical
    · obtain ⟨own, initial, same⟩ := Lowered.value?_bind_eq_some_iff.mp declared
      obtain rfl := Option.some.inj same
      refine forall_lookup_cons (fun operand same => ?_) canonical
      obtain rfl := Option.some.inj same
      exact canonical.localValue initial

end Scope.LocalsCanonical

/-- In a scope that lowering reaches, the local variables stand for canonical operands. -/
theorem Scope.Reached.localsCanonical {scope : Scope} (reached : scope.Reached) : scope.LocalsCanonical := by
  induction reached with
  | start undeclared =>
    intro name operand found
    rw [undeclared] at found
    cases found
  | @after scope s _ canonical =>
    cases s with
    | declare type name value =>
      rw [Statement.lower]
      cases declared : (lowerDeclaration scope type name value).value? with
      | none => exact canonical
      | some locals => exact canonical.declaration declared
    | expression _ | throw _ _ | «return» _ | block _ _ | empty =>
      rw [Statement.lower]
      exact canonical

/-- Every operand that lowering builds is canonical. -/
theorem Operand.Built.canonical {operand : Operand} (built : operand.Built) : operand.Canonical := by
  obtain ⟨scope, e, reached, lowered⟩ := built
  exact reached.localsCanonical.operand lowered

/-! ### Programs -/

theorem Scope.Supplies.built {scope : Scope} (reached : scope.Reached) {argument : Operand × List ValueType}
    (supplies : scope.Supplies argument) : argument.1.Built := by
  obtain ⟨arg, gives⟩ := supplies
  exact ⟨scope, arg, reached, by rw [gives.lowered, Lowered.done]⟩

/-- The arguments of the instructions of a body are operands that lowering builds. -/
theorem builtProperty : BodyProperty Scope.Reached fun i => ∀ argument ∈ i.arguments, argument.1.Built where
  declaration := by
    intro scope type name value locals reached lowered
    have after := reached.after (.declare type name value)
    rwa [Statement.lower, lowered] at after
  returning := List.forall_mem_nil _
  throwing reached lowered argument member := (supplies_of_lowerThrow lowered argument member).built reached
  expression reached lowered argument member := (supplies_of_instruction lowered argument member).built reached

/-- The arguments in the program of a unit are operands that lowering builds. -/
theorem SourceUnit.arguments_built {u : SourceUnit} {qualifiedName : String} {p : Program}
    (lowered : u.lower qualifiedName = .ok p) {instructions : List Instruction} (body : p.HasBody instructions) :
    ∀ i ∈ instructions, ∀ argument ∈ i.arguments, argument.1.Built := by
  obtain ⟨c, _, lowered⟩ := SourceUnit.exists_of_lower_eq_ok lowered
  obtain ⟨fields, bodies, accepted⟩ := ClassDeclaration.accepted_of_lower lowered
  exact accepted.forall_body builtProperty (fun _ _ => .start rfl) body

end RouteDepot.RouteClass
