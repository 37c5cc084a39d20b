import RouteDepot.Proofs.Lowering.Operand
import RouteDepot.RouteClass.Lowering.Definition

/-! # Calls lowered without faults

What the arguments of a call are when lowering them reports nothing: how many there are, which operands they have,
and that each operand has a type that the method accepts.
-/

namespace RouteDepot.RouteClass

/-- An argument has an operand, and the operand a type that a method accepts; null is never accepted. -/
structure Scope.Gives (scope : Scope) (arg : Expression) (accepted : List ValueType) (operand : Operand) : Prop where
  lowered : arg.operand scope = .done operand
  notNull : operand.type ≠ .null
  typed : operand.type ∈ accepted

theorem Scope.argument_eq_done_iff {scope : Scope} {method : String} {accepted : List ValueType} {arg : Expression}
    {operand : Operand} : scope.argument method accepted arg = .done operand ↔ scope.Gives arg accepted operand := by
  simp only [argument, Lowered.bind_eq_done_iff, Operand.checkArgument_eq_done_iff]
  constructor
  · rintro ⟨_, lowered, rfl, notNull, typed⟩
    exact ⟨lowered, notNull, typed⟩
  · rintro ⟨lowered, notNull, typed⟩
    exact ⟨operand, lowered, rfl, notNull, typed⟩

namespace ChainCall

variable {call : ChainCall} {scope : Scope}

@[simp] theorem arityFault_ne_done {α : Type} {expected : Nat} {a : α} : call.arityFault expected ≠ .done a :=
  Lowered.fail_ne_done

theorem single_eq_done_iff {accepted : List ValueType} {operand : Operand} :
    call.single scope accepted = .done operand ↔ ∃ arg, call.args = [arg] ∧ scope.Gives arg accepted operand := by
  obtain ⟨name, _ | ⟨arg, _ | ⟨second, more⟩⟩, span⟩ := call <;> simp [single, Scope.argument_eq_done_iff]

theorem optional_eq_done_iff {accepted : List ValueType} {operand : Option Operand} :
    call.optional scope accepted = .done operand ↔
      call.args = [] ∧ operand = none ∨
        ∃ arg value, call.args = [arg] ∧ operand = some value ∧ scope.Gives arg accepted value := by
  obtain ⟨name, _ | ⟨arg, _ | ⟨second, more⟩⟩, span⟩ := call <;>
    simp [optional, Scope.argument_eq_done_iff, and_comm, eq_comm (a := operand)]

theorem texts_eq_done_iff {operands : List Operand} :
    call.texts scope = .done operands ↔
      call.args ≠ [] ∧ List.Forall₂ (fun arg operand => scope.Gives arg [.str] operand) call.args operands := by
  obtain ⟨name, _ | ⟨arg, more⟩, span⟩ := call
  · simp [texts]
  · simp only [texts, Lowered.all_map_eq_done_iff, Scope.argument_eq_done_iff, ne_eq, List.cons_ne_nil,
      not_false_eq_true, true_and]

theorem textPair_eq_done_iff {pair : Operand × Operand} :
    call.textPair scope = .done pair ↔
      ∃ key value, call.args = [key, value] ∧ scope.Gives key [.str] pair.1 ∧ scope.Gives value [.str] pair.2 := by
  obtain ⟨name, _ | ⟨key, _ | ⟨value, _ | ⟨third, more⟩⟩⟩, span⟩ := call <;>
    simp [textPair, Scope.argument_eq_done_iff]

theorem close_eq_done_iff {α : Type} {result : Option α} :
    call.close scope = .done result ↔ call.args = [] ∧ result = none := by
  simp only [close, arguments, Lowered.map_eq_done_iff, List.length_nil, List.length_eq_zero_iff]
  split
  · rename_i args
    simp [args, Lowered.all, eq_comm]
  · rename_i args
    simp [args]

/-! ### Clauses -/

/-- A call makes a clause: it is named for a language, and its one argument is a text that the language accepts. -/
inductive MakesClause (call : ChainCall) (scope : Scope) : ClauseOperand → Prop
  | mk {language accepted arg text} (named : clauseLanguage? call.name.name = some (language, accepted))
      (args : call.args = [arg]) (gives : scope.Gives arg accepted text) : MakesClause call scope ⟨language, text⟩

/-- The clause that a call ends with, when the rest of its arguments is left for it: the call that follows makes it, or
else the only argument left. -/
@[mk_iff]
inductive EndsWithClause (scope : Scope) (rest : List Expression) (next : Option ChainCall) : ClauseOperand → Prop
  | follows {follower clause} (complete : rest = []) (found : next = some follower)
      (made : follower.MakesClause scope clause) : EndsWithClause scope rest next clause
  | given {callee args span clause} (only : rest = [.call callee args span])
      (made : MakesClause ⟨callee, args, span⟩ scope clause) : EndsWithClause scope rest next clause

theorem clause_eq_done_iff {clause : ClauseOperand} :
    call.clause scope = .done clause ↔ call.MakesClause scope clause := by
  unfold ChainCall.clause
  split
  · rename_i language accepted found
    simp only [Lowered.map_eq_done_iff, single_eq_done_iff]
    constructor
    · rintro ⟨text, ⟨arg, args, gives⟩, rfl⟩
      exact .mk found args gives
    · rintro ⟨named, args, gives⟩
      obtain ⟨rfl, rfl⟩ := Prod.mk.inj (Option.some.inj (found.symm.trans named))
      exact ⟨_, ⟨_, args, gives⟩, rfl⟩
  · rename_i found
    simp only [Lowered.fail_ne_done, false_iff]
    rintro ⟨named, _, _⟩
    cases found.symm.trans named

theorem trailingClause_eq_done_iff {next : Option ChainCall} {clause : ClauseOperand} :
    call.trailingClause scope next = .done clause ↔
      ∃ follower, next = some follower ∧ follower.MakesClause scope clause := by
  cases next <;> simp [trailingClause, clause_eq_done_iff]

theorem inlineClause_eq_done_iff {arg : Expression} {clause : ClauseOperand} :
    call.inlineClause scope arg = .done clause ↔
      ∃ callee args span, arg = .call callee args span ∧ MakesClause ⟨callee, args, span⟩ scope clause := by
  cases arg <;> simp [inlineClause, clause_eq_done_iff]

/-- A call that takes nothing but a clause ends with it. -/
theorem onlyClause_eq_done_iff {next : Option ChainCall} {clause : ClauseOperand} :
    call.onlyClause scope next = .done clause ↔ EndsWithClause scope call.args next clause := by
  obtain ⟨name, _ | ⟨arg, _ | ⟨second, more⟩⟩, span⟩ := call <;>
    simp [onlyClause, trailingClause_eq_done_iff, inlineClause_eq_done_iff, endsWithClause_iff]

/-- A call that sets a header has the name in front, and ends with a clause. -/
theorem headerClause_eq_done_iff {next : Option ChainCall} {pair : Operand × ClauseOperand} :
    call.headerClause scope next = .done pair ↔
      ∃ header rest, call.args = header :: rest ∧ scope.Gives header [.str] pair.1 ∧
        EndsWithClause scope rest next pair.2 := by
  obtain ⟨name, _ | ⟨header, _ | ⟨arg, _ | ⟨third, more⟩⟩⟩, span⟩ := call <;>
    simp [headerClause, Scope.argument_eq_done_iff, trailingClause_eq_done_iff, inlineClause_eq_done_iff,
      endsWithClause_iff]

end ChainCall

end RouteDepot.RouteClass
