import RouteDepot.Proofs.Configuration.PerKey

/-! # What runs accumulate

A run adds the routes and the services of the instructions that it performs, in their order, and makes their operations
on REST configurations. The instruction that a run fails with adds nothing; only one on a REST configuration leaves
behind what was set before the operand that failed.
-/

namespace RouteDepot.RouteClass

open Operand (Reach evalOptional)

/-! ### Instructions that succeed -/

/-- The route that an instruction defines, if it defines one. -/
def Instruction.route? (reach : Reach) : Instruction → Option Route
  | .route origin calls => (buildRoute reach origin calls).toOption
  | _ => none

/-- The service that an instruction defines, if it defines one. -/
def Instruction.service? (reach : Reach) : Instruction → Option RestService
  | .rest path calls => (buildRest reach path calls).toOption
  | _ => none

/-- REST configurations after an operation. -/
def Operation.applyTo (configurations : Option (Ledger RestConfigurationDraft)) (operation : Operation) :
    Option (Ledger RestConfigurationDraft) :=
  some (operation.apply (configurations.getD .empty))

/-- Definitions after instructions that have all succeeded. -/
structure Accumulates (reach : Reach) (performed : List Instruction) (before after : Definitions) : Prop where
  /-- Every instruction for a route has added it, behind the routes before. -/
  routes : after.routes = before.routes ++ performed.filterMap (Instruction.route? reach)
  /-- Every instruction for a service has added it, behind the services before. -/
  services : after.services = before.services ++ performed.filterMap (Instruction.service? reach)
  /-- The operations on REST configurations were made, one after another. -/
  configurations : after.configurations = (operations reach performed).foldl Operation.applyTo before.configurations
  /-- No instruction was passed over. -/
  whole : ∀ i ∈ performed,
    (∀ origin calls, i = .route origin calls → (i.route? reach).isSome) ∧
    (∀ path calls, i = .rest path calls → (i.service? reach).isSome) ∧
    ∀ component calls, i = .restConfiguration component calls → (i.operation? reach).isSome

namespace Accumulates

variable {reach : Reach} {first later : List Instruction} {a b c : Definitions}

theorem nil (d : Definitions) : Accumulates reach [] d d where
  routes := by simp
  services := by simp
  configurations := rfl
  whole := nofun

theorem append (one : Accumulates reach first a b) (two : Accumulates reach later b c) :
    Accumulates reach (first ++ later) a c where
  routes := by rw [two.routes, one.routes, List.filterMap_append, List.append_assoc]
  services := by rw [two.services, one.services, List.filterMap_append, List.append_assoc]
  configurations := by rw [two.configurations, one.configurations, operations_append, List.foldl_append]
  whole := fun i member => (List.mem_append.mp member).elim (one.whole i) (two.whole i)

/-- A plain instruction that succeeds is accumulated. -/
theorem perform {i : Instruction} (plain : i.Plain) (performed : i.perform reach a = (.ok (), b)) :
    Accumulates reach [i] a b := by
  unfold Instruction.perform at performed
  cases i with
  | invoke method => exact absurd rfl (plain.noCall method)
  | «return» => exact absurd rfl plain.noReturn
  | throw exception message =>
    rw [runInstructions_throw_run] at performed
    split at performed <;> cases performed
  | route origin calls =>
    rw [runInstructions_route_run] at performed
    split at performed
    · rename_i route built
      obtain ⟨_, rfl⟩ := Prod.mk.inj performed
      have defined : (Instruction.route origin calls).route? reach = some route := by
        rw [Instruction.route?, built]
        rfl
      exact ⟨by rw [List.filterMap_cons_some defined]; rfl, (List.append_nil _).symm, rfl, by simp [defined]⟩
    · cases performed
  | rest path calls =>
    rw [runInstructions_rest_run] at performed
    split at performed
    · rename_i service built
      obtain ⟨_, rfl⟩ := Prod.mk.inj performed
      have defined : (Instruction.rest path calls).service? reach = some service := by
        rw [Instruction.service?, built]
        rfl
      exact ⟨(List.append_nil _).symm, by rw [List.filterMap_cons_some defined]; rfl, rfl, by simp [defined]⟩
    · cases performed
  | restConfiguration component calls =>
    rw [runInstructions_restConfiguration] at performed
    obtain ⟨operation, found⟩ := exists_operation_of_ok performed
    rw [runRestConfiguration_of_operation? found] at performed
    obtain ⟨_, rfl⟩ := Prod.mk.inj performed
    refine ⟨(List.append_nil _).symm, (List.append_nil _).symm, ?_, by simp [found]⟩
    rw [operations, List.filterMap_cons_some found]
    rfl

/-- What an execution performs is accumulated. -/
theorem executes {p : Program} {s t : RunState} {trace : List Instruction} (executes : p.Executes reach s trace t) :
    Accumulates reach trace s.definitions t.definitions := by
  induction executes with
  | refl => exact nil _
  | step step _ ih =>
    cases step with
    | perform plain performed => exact (perform plain performed).append ih
    | enter | «return» | finish => exact ih

end Accumulates

/-! ### Instructions that fail -/

/-- What an instruction leaves behind when it fails with a fault. -/
inductive Instruction.LeavesBehind (reach : Reach) (d : Definitions) :
    Instruction → ConfigureError → Definitions → Prop
  /-- Nothing, unless it is about a REST configuration. -/
  | nothing {i : Instruction} {fault : ConfigureError}
    (other : ∀ component calls, i ≠ .restConfiguration component calls) : LeavesBehind reach d i fault d
  /-- Nothing, when its component has no value. -/
  | unnamed {component : Option Operand} {calls : List ConfigurationCall} {fault : ConfigureError}
    (failed : evalOptional reach component = .error fault) :
    LeavesBehind reach d (.restConfiguration component calls) fault d
  /-- Otherwise the entry of its component, a new one if there was none, with the edits of the calls before the one
  with the operand that failed: every option and every free property has the last text that these gave it. -/
  | settings {component : Option Operand} {name : Option String} {done later : List ConfigurationCall}
    {failing : ConfigurationCall} {edits : List Edit} {fault : ConfigureError} {after : Ledger RestConfigurationDraft}
    (named : evalOptional reach component = .ok name)
    (edited : List.Forall₂ (fun call edit => ConfigurationCall.edit reach call = .ok edit) done edits)
    (failed : failing.edit reach = .error fault)
    (applied : after = (⟨name.getD "", edits⟩ : Operation).apply (d.configurations.getD .empty))
    (left : EditedUnder (name.getD "") edits (d.configurations.getD .empty) after) :
    LeavesBehind reach d (.restConfiguration component (done ++ failing :: later)) fault
      { d with configurations := some after }

/-- Calls that fail have made the edits of the calls before the one that fails. -/
theorem exists_edits_of_applyConfigurationCalls_error {reach : Reach} {calls : List ConfigurationCall}
    {draft : RestConfigurationDraft} {fault : ConfigureError}
    (failed : (applyConfigurationCalls reach draft calls).2 = .error fault) :
    ∃ done failing later edits, calls = done ++ failing :: later ∧
      List.Forall₂ (fun call edit => ConfigurationCall.edit reach call = .ok edit) done edits ∧
      ConfigurationCall.edit reach failing = .error fault ∧
      (applyConfigurationCalls reach draft calls).1 = edits.foldl Edit.apply draft := by
  induction calls generalizing draft with
  | nil => cases failed
  | cons call later ih =>
    rw [applyConfigurationCalls, ConfigurationCall.apply_eq] at failed ⊢
    cases first : call.edit reach with
    | error other =>
      rw [first] at failed
      obtain rfl := Except.error.inj failed
      exact ⟨[], call, later, [], rfl, .nil, first, rfl⟩
    | ok edit =>
      rw [first] at failed
      obtain ⟨done, failing, rest, edits, rfl, edited, fails, left⟩ := ih failed
      exact ⟨call :: done, failing, rest, edit :: edits, rfl, .cons first edited, fails, left⟩

theorem Instruction.leavesBehind_of_perform {reach : Reach} {i : Instruction} {d d' : Definitions}
    {fault : ConfigureError} (performed : i.perform reach d = (.error fault, d')) :
    i.LeavesBehind reach d fault d' := by
  unfold Instruction.perform at performed
  cases i with
  | invoke method | «return» => cases performed
  | throw exception message =>
    rw [runInstructions_throw_run] at performed
    obtain rfl : d = d' := by split at performed <;> exact (Prod.mk.inj performed).2
    exact .nothing nofun
  | route origin calls =>
    rw [runInstructions_route_run] at performed
    split at performed
    · cases performed
    · obtain ⟨_, rfl⟩ := Prod.mk.inj performed
      exact .nothing nofun
  | rest path calls =>
    rw [runInstructions_rest_run] at performed
    split at performed
    · cases performed
    · obtain ⟨_, rfl⟩ := Prod.mk.inj performed
      exact .nothing nofun
  | restConfiguration component calls =>
    rw [runInstructions_restConfiguration, runRestConfiguration_run] at performed
    split at performed
    · rename_i name named
      obtain ⟨failed, rfl⟩ := Prod.mk.inj performed
      obtain ⟨done, failing, later, edits, rfl, edited, fails, left⟩ :=
        exists_edits_of_applyConfigurationCalls_error failed
      rw [left]
      exact .settings named edited fails rfl (Operation.editedUnder_apply ⟨name.getD "", edits⟩ _)
    · rename_i other unnamed
      obtain ⟨failed, rfl⟩ := Prod.mk.inj performed
      obtain rfl := Except.error.inj failed
      exact .unnamed unnamed

/-- A run that stops with a fault stops at an instruction, and this one leaves behind what the run has defined last. -/
theorem Program.Stops.leavesBehind {p : Program} {reach : Reach} {t : RunState} {fault : ConfigureError}
    {d : Definitions} (stops : p.Stops reach t (.error fault, d)) :
    ∃ i later outer, t.bodies = (i :: later) :: outer ∧ i.LeavesBehind reach t.definitions fault d := by
  cases stops with
  | fails _ performed => exact ⟨_, _, _, rfl, Instruction.leavesBehind_of_perform performed⟩
  | tooDeep _ => exact ⟨_, _, _, rfl, .nothing nofun⟩
  | missing _ _ => exact ⟨_, _, _, rfl, .nothing nofun⟩

end RouteDepot.RouteClass
