import RouteDepot.Proofs.Direct.Execution
import RouteDepot.Proofs.Lowering.Operand

/-! # Operands mean their expressions

The operand that an expression is lowered to comes to the value that the expression has when it is evaluated directly.
Constants that are folded, local variables that are replaced by their initialisers and concatenations that are
flattened make no difference, neither to the value nor to the first fault.
-/

namespace RouteDepot.RouteClass.Direct

open Operand (Reach)

/-- The value of an operand, as the result of a direct run. -/
def valueOf (reach : Reach) (operand : Operand) : Except Halt Value := (operand.eval reach).mapError .failed

@[simp] theorem valueOf_const (reach : Reach) (value : Value) : valueOf reach (.const value) = .ok value := by
  simp [valueOf, Operand.eval]

/-- The names of a scope mean in an environment what they are lowered to. -/
structure Agrees (scope : Scope) (env : Environment) (locals : Locals) : Prop where
  fields : env.fields = scope.fields
  initialised : ∀ name operand, scope.locals.lookup name = some (some operand) →
    env.localValue? locals name = some (valueOf env.reach operand)
  undeclared : ∀ name, scope.locals.lookup name = none → env.localValue? locals name = none

theorem plus_of_text {a b : Value} (text : a.type = .str ∨ b.type = .str) :
    plus a b = .ok (.str (a.display ++ b.display)) := by
  cases a <;> cases b <;> simp_all [plus, Value.type, Value.display]

theorem plus_valueOf {reach : Reach} {span : Span} {left right sum : Operand}
    (added : left.plus span right = .done sum) :
    (do plus (← valueOf reach left) (← valueOf reach right)) = valueOf reach sum := by
  obtain ⟨a, b, rfl, rfl, rfl⟩ | ⟨text, rfl⟩ := Operand.plus_eq_done added
  · simp [plus]
  · simp only [valueOf, Operand.eval_append, Operand.evalText]
    cases first : left.eval reach with
    | error fault => rfl
    | ok a =>
      cases second : right.eval reach with
      | error fault => rfl
      | ok b =>
        rw [← Operand.type_of_eval first, ← Operand.type_of_eval second] at text
        exact plus_of_text text

namespace Agrees

variable {scope : Scope} {env : Environment} {locals : Locals}

theorem field (agrees : Agrees scope env locals) {name : Ident} {operand : Operand}
    (lowered : scope.field name = .done operand) : env.field name.name = valueOf env.reach operand := by
  obtain ⟨value, found, rfl⟩ := Scope.field_eq_done_iff.mp lowered
  simp [Environment.field, agrees.fields, found]

/-- An expression has the value of the operand that it is lowered to. -/
theorem eval (agrees : Agrees scope env locals) {e : Expression} {operand : Operand}
    (lowered : e.operand scope = .done operand) : env.eval locals e = valueOf env.reach operand := by
  unfold Environment.eval
  -- The cases are those of lowering; the ones that report a fault have no operand.
  fun_induction Expression.operand scope e generalizing operand with
  | case1 value =>
    obtain rfl := Lowered.done_inj.mp lowered
    simp [Environment.evalIn]
  | case2 name =>
    rw [Environment.evalIn]
    obtain found | ⟨absent, found⟩ := Scope.resolve_eq_done_iff.mp lowered
    · rw [agrees.initialised _ _ found, Option.getD_some]
    · rw [agrees.undeclared _ absent, Option.getD_none, agrees.field found]
  | case4 _ member =>
    rw [Environment.evalIn]
    exact agrees.field lowered
  | case5 owner member mode known =>
    obtain rfl := Lowered.done_inj.mp lowered
    simp [Environment.evalIn, mode, known]
  | case3 | case6 | case7 | case8 | case9 | case11 | case12 | case13 | case14 =>
    exact absurd lowered Lowered.fail_ne_done
  | case10 target callee span asked inMethod arg ih =>
    simp only [Lowered.bind_eq_done_iff, Operand.checkArgument_eq_done_iff, Lowered.pure_eq_done,
      Lowered.done_inj] at lowered
    obtain ⟨text, inner, _, ⟨rfl, _, typed⟩, rfl⟩ := lowered
    rw [Environment.evalIn, if_pos asked, ih inner]
    have typed : text.type = .str := by simpa using typed
    simp only [valueOf, Operand.eval, Operand.eval_eq_str typed]
    cases text.evalText env.reach with
    | error fault => rfl
    | ok text => exact (Except.mapError_map _ _ _).symm
  | case15 left right ihl ihr =>
    simp only [Lowered.bind_eq_done_iff, Lowered.both_eq_done_iff] at lowered
    obtain ⟨⟨l, r⟩, ⟨first, second⟩, added⟩ := lowered
    rw [Environment.evalIn, ihl first, ihr second]
    exact plus_valueOf added

end Agrees

end RouteDepot.RouteClass.Direct
