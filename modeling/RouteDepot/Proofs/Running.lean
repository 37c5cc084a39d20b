import RouteDepot.RouteClass.Instance

/-! # Runs of instructions

What a sequence of computations on a state does, step by step: a run goes on from the state of the step before it
when that has a value. Instructions that do not return can be run in parts.
-/

namespace ExceptT

variable {α β ε σ : Type}

/-- A sequence of computations on a state goes on from the state of the first one, when that has a value. -/
theorem run_bind_state (first : ExceptT ε (StateM σ) α) (next : α → ExceptT ε (StateM σ) β) (s : σ) :
    (first >>= next).run.run s =
      match first.run.run s with
      | (.ok a, s) => (next a).run.run s
      | (.error fault, s) => (.error fault, s) := by
  rcases ran : first.run.run s with ⟨_ | _, _⟩
  all_goals
    rw [run_bind, StateT.run_bind, ran]
    rfl

end ExceptT

namespace RouteDepot.RouteClass

open Operand (Reach)

/-- Runs that do the same from all definitions are the same. -/
theorem Run.ext {α : Type} {first second : Run α} (same : ∀ d, first.run.run d = second.run.run d) : first = second :=
  funext same

/-- What comes of a run: its result and what it has defined. -/
abbrev Outcome := Except ConfigureError Unit × Definitions

/-- Instructions one after another, when the first of them do not return. -/
theorem runInstructions_append {reach : Reach} {call : String → Run Unit} {first : List Instruction}
    (continues : .return ∉ first) (later : List Instruction) :
    runInstructions reach call (first ++ later) =
      (do runInstructions reach call first; runInstructions reach call later) := by
  induction first with
  | nil => simp [runInstructions]
  | cons instruction rest ih =>
    obtain ⟨differs, continues⟩ := not_or.mp (fun member => continues (List.mem_cons.mpr member))
    have ih := ih continues
    cases instruction with
    | «return» => exact absurd rfl differs
    | throw exception message =>
      simp only [List.cons_append, runInstructions, bind_assoc]
      rfl
    | route | rest | restConfiguration | invoke => simp only [List.cons_append, runInstructions, bind_assoc, ih]

/-- An instruction that does not return is followed by the ones after it. -/
theorem runInstructions_cons {reach : Reach} {call : String → Run Unit} {instruction : Instruction}
    (continues : instruction ≠ .return) (later : List Instruction) :
    runInstructions reach call (instruction :: later) =
      (do runInstructions reach call [instruction]; runInstructions reach call later) := by
  have single : .return ∉ [instruction] := by simpa [eq_comm] using continues
  exact runInstructions_append single later

/-- Instructions that call no methods run the same whatever methods there are. -/
theorem runInstructions_of_noCall {reach : Reach} {instructions : List Instruction}
    (noCall : ∀ method, .invoke method ∉ instructions) (call call' : String → Run Unit) :
    runInstructions reach call instructions = runInstructions reach call' instructions := by
  induction instructions with
  | nil => rfl
  | cons i later ih =>
    have later := ih fun method member => noCall method (List.mem_cons_of_mem i member)
    cases i with
    | invoke method => exact absurd List.mem_cons_self (noCall method)
    | «return» | throw => rfl
    | route | rest | restConfiguration => simp only [runInstructions, later]

/-! ### Single instructions -/

theorem runInstructions_route_run (reach : Reach) (call : String → Run Unit) (origin : Operand)
    (calls : List RouteCall) (d : Definitions) :
    (runInstructions reach call [.route origin calls]).run.run d =
      match buildRoute reach origin calls with
      | .ok route => (.ok (), { d with routes := d.routes ++ [route] })
      | .error fault => (.error fault, d) := by
  rw [runInstructions, ExceptT.run_bind_state]
  cases buildRoute reach origin calls <;> rfl

theorem runInstructions_rest_run (reach : Reach) (call : String → Run Unit) (path : Option Operand)
    (calls : List RestCall) (d : Definitions) :
    (runInstructions reach call [.rest path calls]).run.run d =
      match buildRest reach path calls with
      | .ok service => (.ok (), { d with services := d.services ++ [service] })
      | .error fault => (.error fault, d) := by
  rw [runInstructions, ExceptT.run_bind_state]
  cases buildRest reach path calls <;> rfl

theorem runInstructions_throw_run (reach : Reach) (call : String → Run Unit) (exception : String)
    (message : Option Operand) (later : List Instruction) (d : Definitions) :
    (runInstructions reach call (.throw exception message :: later)).run.run d =
      match Operand.evalOptional reach message with
      | .ok text => (.error (.raised exception (text.getD "")), d)
      | .error fault => (.error fault, d) := by
  rw [runInstructions, ExceptT.run_bind_state]
  cases Operand.evalOptional reach message <;> rfl

theorem runInstructions_restConfiguration (reach : Reach) (call : String → Run Unit) (component : Option Operand)
    (calls : List ConfigurationCall) :
    runInstructions reach call [.restConfiguration component calls] = runRestConfiguration reach component calls := by
  simp [runInstructions]

theorem runInstructions_invoke (reach : Reach) (call : String → Run Unit) (method : String) :
    runInstructions reach call [.invoke method] = call method := by
  simp [runInstructions]

/-- A REST configuration is left with what its calls have set, whether or not they all succeed. -/
theorem runRestConfiguration_run (reach : Reach) (component : Option Operand) (calls : List ConfigurationCall)
    (d : Definitions) :
    (runRestConfiguration reach component calls).run.run d =
      match Operand.evalOptional reach component with
      | .ok name =>
        let key := name.getD ""
        let drafts := d.configurations.getD .empty
        let (draft, result) := applyConfigurationCalls reach ((drafts.get? key).getD (freshDraft key)) calls
        (result, { d with configurations := some (drafts.put key draft) })
      | .error fault => (.error fault, d) := by
  unfold runRestConfiguration
  rw [ExceptT.run_bind_state]
  cases Operand.evalOptional reach component with
  | error fault => rfl
  | ok key => rfl

end RouteDepot.RouteClass
