import RouteDepot.Proofs.Configuration.PerKey
import RouteDepot.Proofs.Running.Alike

/-! # Rearranging statements on REST configurations

Instructions on REST configurations for different keys may change places: only the order of the keys changes. An
instruction may be split into several ones for the same key: nothing changes.
-/

namespace RouteDepot.RouteClass

open Operand (Reach evalOptional)

/-! ### Changing places -/

/-- Instructions in another order, which is reached by changing the places of neighbours on REST configurations for
different keys. -/
inductive Rearranges (reach : Reach) : List Instruction → List Instruction → Prop
  | nil : Rearranges reach [] []
  | cons (i : Instruction) {later later' : List Instruction} : Rearranges reach later later' →
      Rearranges reach (i :: later) (i :: later')
  | swap {i j : Instruction} {first second : Operation} (later : List Instruction) :
      i.operation? reach = some first → j.operation? reach = some second → first.key ≠ second.key →
      Rearranges reach (i :: j :: later) (j :: i :: later)
  | trans {first second third : List Instruction} : Rearranges reach first second → Rearranges reach second third →
      Rearranges reach first third

/-- Outcomes that agree, the order of the keys of REST configurations aside. -/
def sameButOrder : Likeness where
  relates configurations configurations' := (configurations = none ↔ configurations' = none) ∧
    ∀ key, (configurations.getD .empty).get? key = (configurations'.getD .empty).get? key
  excuses _ := False

namespace sameButOrder

theorem ends_iff {first second : Outcome} :
    sameButOrder.Ends first second ↔ first.1 = second.1 ∧ sameButOrder.Holds first.2 second.2 := by
  simp [Likeness.Ends, sameButOrder]

theorem holds_refl (d : Definitions) : sameButOrder.Holds d d := ⟨rfl, rfl, Iff.rfl, fun _ => rfl⟩

theorem holds_symm {d d' : Definitions} (alike : sameButOrder.Holds d d') : sameButOrder.Holds d' d :=
  ⟨alike.routes.symm, alike.services.symm, alike.configurations.1.symm, fun key => (alike.configurations.2 key).symm⟩

theorem holds_trans {d d' d'' : Definitions} (first : sameButOrder.Holds d d') (second : sameButOrder.Holds d' d'') :
    sameButOrder.Holds d d'' :=
  ⟨first.routes.trans second.routes, first.services.trans second.services,
    first.configurations.1.trans second.configurations.1,
    fun key => (first.configurations.2 key).trans (second.configurations.2 key)⟩

theorem runs_symm {run run' : Run Unit} (alike : sameButOrder.Runs run run') : sameButOrder.Runs run' run := by
  intro d d' same
  obtain ⟨results, ended⟩ := ends_iff.mp (alike d' d (holds_symm same))
  exact ends_iff.mpr ⟨results.symm, holds_symm ended⟩

theorem runs_trans {run run' run'' : Run Unit} (first : sameButOrder.Runs run run')
    (second : sameButOrder.Runs run' run'') : sameButOrder.Runs run run'' := by
  intro d d' same
  obtain ⟨results, ended⟩ := ends_iff.mp (first d d' same)
  obtain ⟨results', ended'⟩ := ends_iff.mp (second d' d' (holds_refl d'))
  exact ends_iff.mpr ⟨results.trans results', holds_trans ended ended'⟩

theorem holds_put {d d' : Definitions} (alike : sameButOrder.Holds d d') (key : String)
    (draft : RestConfigurationDraft) :
    sameButOrder.Holds { d with configurations := some ((d.configurations.getD .empty).put key draft) }
      { d' with configurations := some ((d'.configurations.getD .empty).put key draft) } := by
  refine ⟨alike.routes, alike.services, by simp, fun name => ?_⟩
  rw [Option.getD_some, Option.getD_some, Ledger.get?_put, Ledger.get?_put, alike.configurations.2 name]

/-- An instruction on a REST configuration does not depend on the order of the keys. -/
theorem runs_restConfiguration (reach : Reach) (component : Option Operand) (calls : List ConfigurationCall) :
    sameButOrder.Runs (runRestConfiguration reach component calls) (runRestConfiguration reach component calls) := by
  intro d d' alike
  rw [runRestConfiguration_run, runRestConfiguration_run, ends_iff]
  cases evalOptional reach component with
  | error fault => exact ⟨rfl, alike⟩
  | ok name =>
    simp only [alike.configurations.2 (name.getD ""), true_and]
    exact holds_put alike _ _

/-- Instructions do not depend on the order of the keys, when the methods that they call do not. -/
theorem runs_instructions {reach : Reach} {call call' : String → Run Unit}
    (calls : ∀ method, sameButOrder.Runs (call method) (call' method)) (instructions : List Instruction) :
    sameButOrder.Runs (runInstructions reach call instructions) (runInstructions reach call' instructions) := by
  refine Likeness.runs_forall₂ (fun i i' same => ?_) (fun i i' same => ?_) (List.forall₂_eq_eq_eq ▸ rfl)
  · obtain rfl : i = i' := same
    exact Likeness.runs_singleton calls fun component calls _ => runs_restConfiguration reach component calls
  · obtain rfl : i = i' := same
    exact Iff.rfl

end sameButOrder

/-- Operations under different keys can be applied in either order. -/
theorem get?_apply_apply {first second : Operation} (different : first.key ≠ second.key)
    (drafts : Ledger RestConfigurationDraft) (key : String) :
    (second.apply (first.apply drafts)).get? key = (first.apply (second.apply drafts)).get? key := by
  simp only [Operation.apply, Ledger.get?_put, different, Ne.symm different, if_false]
  by_cases one : key = first.key
  · simp [one, different]
  · simp [one]

/-- An operation leaves the same drafts, whatever the order of the keys was. -/
theorem get?_apply {operation : Operation} {drafts drafts' : Ledger RestConfigurationDraft}
    (same : ∀ key, drafts.get? key = drafts'.get? key) (key : String) :
    (operation.apply drafts).get? key = (operation.apply drafts').get? key := by
  simp only [Operation.apply, Ledger.get?_put, same]

/-- An instruction with an operation does what the operation does. -/
theorem runInstructions_of_operation? {reach : Reach} {call : String → Run Unit} {i : Instruction}
    {operation : Operation} (found : i.operation? reach = some operation) (later : List Instruction) (d : Definitions) :
    (runInstructions reach call (i :: later)).run.run d =
      (runInstructions reach call later).run.run
        { d with configurations := some (operation.apply (d.configurations.getD .empty)) } := by
  cases i with
  | restConfiguration component calls =>
    rw [runInstructions, ExceptT.run_bind_state, runRestConfiguration_of_operation? found]
  | route | rest | invoke | throw | «return» => cases found

/-- Instructions in another order end alike, when the methods that they call do. -/
theorem Rearranges.runs {reach : Reach} {call call' : String → Run Unit}
    (calls : ∀ method, sameButOrder.Runs (call method) (call' method)) {instructions instructions' : List Instruction}
    (rearranges : Rearranges reach instructions instructions') :
    sameButOrder.Runs (runInstructions reach call instructions) (runInstructions reach call' instructions') := by
  induction rearranges generalizing call with
  | nil => exact .pure
  | cons i _ ih => exact Likeness.runs_cons Iff.rfl (sameButOrder.runs_instructions calls [i]) (ih calls)
  | swap later one two different =>
    intro d d' alike
    rw [runInstructions_of_operation? one, runInstructions_of_operation? two, runInstructions_of_operation? two,
      runInstructions_of_operation? one]
    refine sameButOrder.runs_instructions calls later _ _ ⟨alike.routes, alike.services, by simp, fun key => ?_⟩
    simp only [Option.getD_some]
    rw [get?_apply_apply different]
    exact get?_apply (get?_apply alike.configurations.2) key
  | trans _ _ first second =>
    have same (method : String) : sameButOrder.Runs (call' method) (call' method) :=
      sameButOrder.runs_trans (sameButOrder.runs_symm (calls method)) (calls method)
    exact sameButOrder.runs_trans (first calls) (second same)

/-! ### Splitting -/

/-- Instructions of which some on REST configurations are split into several ones for the same key. -/
inductive Splits (reach : Reach) : List Instruction → List Instruction → Prop
  | nil : Splits reach [] []
  | cons (i : Instruction) {later later' : List Instruction} : Splits reach later later' →
      Splits reach (i :: later) (i :: later')
  | split {component component' : Option Operand} (first second : List ConfigurationCall)
      {later later' : List Instruction} :
      (∀ name, evalOptional reach component = .ok name →
        ∃ name', evalOptional reach component' = .ok name' ∧ name'.getD "" = name.getD "") →
      Splits reach later later' →
      Splits reach (.restConfiguration component (first ++ second) :: later)
        (.restConfiguration component first :: .restConfiguration component' second :: later')
  | trans {first second third : List Instruction} : Splits reach first second → Splits reach second third →
      Splits reach first third

/-- Calls one after another: the second ones are made to the draft that the first ones leave, if these succeed. -/
theorem applyConfigurationCalls_append (reach : Reach) (draft : RestConfigurationDraft)
    (first second : List ConfigurationCall) :
    applyConfigurationCalls reach draft (first ++ second) =
      match applyConfigurationCalls reach draft first with
      | (next, .ok ()) => applyConfigurationCalls reach next second
      | (next, .error fault) => (next, .error fault) := by
  induction first generalizing draft with
  | nil => rfl
  | cons call later ih =>
    simp only [List.cons_append, applyConfigurationCalls]
    cases call.apply reach draft with
    | error fault => rfl
    | ok next => exact ih next

/-- Splitting an instruction changes nothing. -/
theorem runRestConfiguration_append {reach : Reach} {component component' : Option Operand}
    (same : ∀ name, evalOptional reach component = .ok name →
      ∃ name', evalOptional reach component' = .ok name' ∧ name'.getD "" = name.getD "")
    (first second : List ConfigurationCall) :
    runRestConfiguration reach component (first ++ second) =
      (do runRestConfiguration reach component first; runRestConfiguration reach component' second) := by
  refine Run.ext fun d => ?_
  rw [ExceptT.run_bind_state, runRestConfiguration_run, runRestConfiguration_run]
  cases evaluated : evalOptional reach component with
  | error fault => rfl
  | ok name =>
    obtain ⟨name', evaluated', key⟩ := same name evaluated
    simp only [applyConfigurationCalls_append]
    rcases applyConfigurationCalls reach (((d.configurations.getD .empty).get? (name.getD "")).getD
      (freshDraft (name.getD ""))) first with ⟨next, fault | _⟩
    · rfl
    · simp only [runRestConfiguration_run, evaluated', key, Option.getD_some, Ledger.get?_put, if_true, Ledger.put_put]

/-- Instructions that are split do the same. -/
theorem Splits.run_eq {reach : Reach} {instructions instructions' : List Instruction}
    (splits : Splits reach instructions instructions') (call : String → Run Unit) :
    runInstructions reach call instructions = runInstructions reach call instructions' := by
  induction splits with
  | nil => rfl
  | @cons i later later' _ ih =>
    by_cases ends : i = .return
    · subst ends
      rfl
    · rw [runInstructions_cons ends later, runInstructions_cons ends later', ih]
  | split first second same _ ih =>
    simp only [runInstructions, runRestConfiguration_append same, bind_assoc, ih]
  | trans _ _ first second => exact first.trans second

end RouteDepot.RouteClass
