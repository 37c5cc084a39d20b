import RouteDepot.Proofs.Lowering.Body
import RouteDepot.Proofs.Lowering.Class
import RouteDepot.RouteClass.Instance

/-! # Instantiation

A constructor that compiles only returns or throws, and what it throws has a constant message or none. So making an
instance fails with what the constructor itself throws, and a new instance has defined nothing.
-/

namespace RouteDepot.RouteClass

/-- The instructions of a constructor: it returns, or it throws with a constant text or without a message. -/
inductive Instruction.Ending : Instruction → Prop
  | return : Ending .return
  | throw (exception : String) (message : Option String) :
      Ending (.throw exception (message.map fun text => .const (.str text)))

/-- Outside of methods every local variable is declared with a constant. -/
structure Scope.Constant (scope : Scope) : Prop where
  place : scope.place ≠ .method
  locals : ∀ name operand, scope.locals.lookup name = some (some operand) → ∃ value, operand = .const value

namespace Scope.Constant

variable {scope : Scope}

theorem operand (constant : scope.Constant) {e : Expression} {operand : Operand}
    (lowered : e.operand scope = .done operand) : ∃ value, operand = .const value := by
  refine Expression.operand_closed (fun value => ⟨value, rfl⟩) (fun method => absurd method constant.place) ?_
    constant.locals lowered
  rintro _ _ ⟨left, rfl⟩ ⟨right, rfl⟩
  exact ⟨.str (left.display ++ right.display), by
    simp [Operand.append, Operand.parts, Operand.mergeConstants, Value.display]⟩

/-- The instructions of a body outside of methods return or throw. -/
theorem bodyProperty : BodyProperty Scope.Constant Instruction.Ending where
  declaration := by
    intro scope type name value locals constant lowered
    refine ⟨constant.place, ?_⟩
    obtain ⟨_, rfl⟩ | ⟨e, initial, _, done, rfl⟩ := lowerDeclaration_eq_done lowered
    · exact forall_lookup_cons nofun constant.locals
    · refine forall_lookup_cons (fun operand same => ?_) constant.locals
      obtain rfl := Option.some.inj same
      exact constant.operand done
  returning := .return
  throwing := by
    intro scope value span instruction constant lowered
    obtain ⟨type, args, whole, _, ⟨_, rfl⟩ | ⟨arg, more, message, _, done, rfl⟩⟩ := lowerThrow_eq_done lowered
    · exact .throw type.text none
    · obtain ⟨operand, found, ⟨_, rfl⟩ | ⟨text, rfl⟩⟩ := exceptionMessage_eq_done_iff.mp done
      · exact .throw type.text none
      · obtain ⟨value, rfl⟩ := constant.operand found
        cases value with
        | str value => exact .throw type.text (some value)
        | int _ | bool _ | null => cases text
  expression := by
    intro scope e instruction constant lowered
    obtain ⟨first, later, _, lowered⟩ := Expression.instruction_eq_done lowered
    exact absurd (lowerChain_eq_done lowered).1 constant.place

end Scope.Constant

/-- The constructor of a class that is accepted returns or throws. -/
theorem ClassDeclaration.Accepted.ending_of_constructor {c : ClassDeclaration} {fields : List (String × Value)}
    {bodies : List (Option (String × List Instruction))} {p : Program} (accepted : c.Accepted fields bodies p)
    {instructions : List Instruction} (constructor : p.constructor = some instructions) :
    ∀ i ∈ instructions, i.Ending := by
  obtain rfl | ⟨body, lowered⟩ := accepted.constructor_eq constructor
  · simp
  · exact Block.forall_lower Scope.Constant.bodyProperty ⟨by simp, by simp [scope]⟩ lowered

/-- Instructions that return or throw define nothing, and fail with what the first of them throws. -/
theorem run_ending {reach : Operand.Reach} {call : String → Run Unit} {instructions : List Instruction}
    (ending : ∀ i ∈ instructions, i.Ending) (d : Definitions) :
    ((runInstructions reach call instructions).run.run d).2 = d ∧
      ∀ fault, ((runInstructions reach call instructions).run.run d).1 = .error fault →
        ∃ exception, ∃ message : Option String,
          .throw exception (message.map fun text => .const (.str text)) ∈ instructions ∧
          fault = .raised exception (message.getD "") := by
  -- The first instruction ends the run, whatever comes after it.
  cases instructions with
  | nil => exact ⟨rfl, fun _ failed => nomatch failed⟩
  | cons first later =>
    cases ending first List.mem_cons_self with
    | «return» => exact ⟨rfl, fun _ failed => nomatch failed⟩
    | throw exception message =>
      have result : (runInstructions reach call
          (.throw exception (message.map fun text => .const (.str text)) :: later)).run.run d =
            (.error (.raised exception (message.getD "")), d) := by
        cases message <;> rfl
      rw [result]
      refine ⟨rfl, fun fault failed => ?_⟩
      obtain rfl := Except.error.inj failed
      exact ⟨exception, message, List.mem_cons_self, rfl⟩

/-- Instructions that return or throw call no methods. -/
theorem invoke_notMem_of_ending {instructions : List Instruction} (ending : ∀ i ∈ instructions, i.Ending)
    (method : String) : .invoke method ∉ instructions :=
  fun member => nomatch ending _ member

/-- A new instance of a program that compiles has defined nothing, and no context is bound to it. -/
theorem Instance.eq_of_create_eq_ok {c : ClassDeclaration} {fields : List (String × Value)}
    {bodies : List (Option (String × List Instruction))} {p : Program} (accepted : c.Accepted fields bodies p)
    {i : Instance} (created : create p = .ok i) : p.isAbstract = false ∧ i = { program := p } := by
  unfold create at created
  split at created
  · cases created
  · rename_i concrete
    refine ⟨Bool.not_eq_true _ ▸ concrete, ?_⟩
    split at created
    · cases created
    · rename_i body constructor
      have untouched : ((runInstructions none (p.call none callDepthLimit) body).run.run {}).2 = {} :=
        (run_ending (accepted.ending_of_constructor constructor) {}).1
      split at created
      · rename_i definitions ran
        obtain rfl := Except.ok.inj created
        obtain rfl : definitions = {} := by rw [← untouched, ← Program.run, ran]
        rfl
      · cases created

end RouteDepot.RouteClass
