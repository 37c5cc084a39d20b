import RouteDepot.Proofs.Calls.Machine
import RouteDepot.Proofs.Configuration.Edits

/-! # REST configurations by key

An instruction on a REST configuration makes edits under a key. What comes of a run is described key by key: the keys
are those of the instructions in the order of their first use, and under each key is a fresh draft with the edits under
that key, in the order in which they were made.
-/

namespace RouteDepot.RouteClass

open Operand (Reach evalOptional)

/-! ### Operations -/

/-- Edits under a key. -/
structure Operation where
  key : String
  edits : List Edit

/-- The operation of an instruction on a REST configuration, if the arguments of the instruction have values. -/
def Instruction.operation? (reach : Reach) : Instruction → Option Operation
  | .restConfiguration component calls =>
    match evalOptional reach component, calls.mapM (ConfigurationCall.edit reach) with
    | .ok name, .ok edits => some ⟨name.getD "", edits⟩
    | _, _ => none
  | _ => none

/-- The edits that operations make under a key, one after another. -/
def editsUnder (key : String) (operations : List Operation) : List Edit :=
  (operations.filter (·.key = key)).flatMap (·.edits)

/-- The ledger after an operation: the draft under the key, or else a fresh one, is edited. -/
def Operation.apply (operation : Operation) (drafts : Ledger RestConfigurationDraft) : Ledger RestConfigurationDraft :=
  drafts.put operation.key
    (operation.edits.foldl Edit.apply ((drafts.get? operation.key).getD (freshDraft operation.key)))

theorem operation?_eq_some_iff {reach : Reach} {component : Option Operand} {calls : List ConfigurationCall}
    {operation : Operation} :
    (Instruction.restConfiguration component calls).operation? reach = some operation ↔
      ∃ name, evalOptional reach component = .ok name ∧ operation.key = name.getD "" ∧
        List.Forall₂ (fun call edit => ConfigurationCall.edit reach call = .ok edit) calls operation.edits := by
  obtain ⟨key, made⟩ := operation
  simp only [Instruction.operation?, ← Except.mapM_eq_ok_iff]
  cases evalOptional reach component with
  | error fault => simp
  | ok name => cases calls.mapM (ConfigurationCall.edit reach) <;> simp [eq_comm]

/-- An instruction with an operation succeeds, and does what the operation does. -/
theorem runRestConfiguration_of_operation? {reach : Reach} {component : Option Operand}
    {calls : List ConfigurationCall} {operation : Operation}
    (found : (Instruction.restConfiguration component calls).operation? reach = some operation) (d : Definitions) :
    (runRestConfiguration reach component calls).run.run d =
      (.ok (), { d with configurations := some (operation.apply (d.configurations.getD .empty)) }) := by
  obtain ⟨name, evaluated, key, edits⟩ := operation?_eq_some_iff.mp found
  rw [runRestConfiguration_run, evaluated]
  simp only [applyConfigurationCalls_of_edits edits, Operation.apply, key]

/-- An instruction on a REST configuration that succeeds has an operation. -/
theorem exists_operation_of_ok {reach : Reach} {component : Option Operand} {calls : List ConfigurationCall}
    {d d' : Definitions} (success : (runRestConfiguration reach component calls).run.run d = (.ok (), d')) :
    ∃ operation, (Instruction.restConfiguration component calls).operation? reach = some operation := by
  rw [runRestConfiguration_run] at success
  cases evaluated : evalOptional reach component with
  | error fault =>
    rw [evaluated] at success
    cases success
  | ok name =>
    rw [evaluated] at success
    obtain ⟨edits, made⟩ := exists_edits_of_applyConfigurationCalls (congrArg Prod.fst success)
    exact ⟨⟨name.getD "", edits⟩, operation?_eq_some_iff.mpr ⟨name, evaluated, rfl, made⟩⟩

/-- What edits under a key make of REST configurations. -/
structure EditedUnder (key : String) (edits : List Edit) (before after : Ledger RestConfigurationDraft) : Prop where
  /-- The key is in use, behind the other ones if it is new. -/
  keys : after.keys = if key ∈ before.keys then before.keys else before.keys ++ [key]
  /-- What is held under other keys stays. -/
  others : ∀ other, other ≠ key → after.get? other = before.get? other
  /-- Under the key is a draft. Its options and free properties have the last texts that they were given, or else those
  from before; the component of a new draft starts with the key. -/
  draft : ∃ draft, after.get? key = some draft ∧
    (∀ option : RestOption, option.get draft = (edits.filterMap (Edit.text? option)).getLast?.or
      ((before.get? key).elim (if option = .component ∧ key ≠ "" then some key else none) (RestOption.get · option))) ∧
    ∀ (group : RestPropertyGroup) name,
      (group.get draft).get? name = (edits.filterMap (Edit.propertyText? group name)).getLast?.or
        ((before.get? key).bind fun earlier => (group.get earlier).get? name)

/-- An operation makes its edits under its key. -/
theorem Operation.editedUnder_apply (operation : Operation) (drafts : Ledger RestConfigurationDraft) :
    EditedUnder operation.key operation.edits drafts (operation.apply drafts) where
  keys := Ledger.keys_put ..
  others other different := by rw [Operation.apply, Ledger.get?_put, if_neg different]
  draft := by
    refine ⟨_, by rw [Operation.apply, Ledger.get?_put, if_pos rfl], fun option => ?_, fun group name => ?_⟩
    · rw [Edit.get_foldl_apply]
      cases drafts.get? operation.key with
      | none => rw [Option.getD_none, RestOption.get_freshDraft, Option.elim_none]
      | some draft => rfl
    · rw [Edit.get?_foldl_apply]
      cases drafts.get? operation.key with
      | none =>
        rw [Option.getD_none, RestPropertyGroup.get_freshDraft]
        rfl
      | some draft => rfl

/-! ### Sequences of operations -/

/-- REST configurations after operations, each under its key. -/
structure Accounts (operations : List Operation) (configurations : Option (Ledger RestConfigurationDraft)) : Prop where
  /-- There are none as long as there is no operation. -/
  absent : configurations = none ↔ operations = []
  /-- The keys come in the order of their first use. -/
  keys : (configurations.getD .empty).keys = (operations.map (·.key)).eraseDups
  /-- Under a key is a fresh draft with the edits under that key, in their order. -/
  drafts : ∀ key, (configurations.getD .empty).get? key =
    if key ∈ operations.map (·.key) then some ((editsUnder key operations).foldl Edit.apply (freshDraft key)) else none

theorem editsUnder_concat (key : String) (operations : List Operation) (operation : Operation) :
    editsUnder key (operations ++ [operation]) =
      editsUnder key operations ++ if operation.key = key then operation.edits else [] := by
  simp only [editsUnder, List.filter_append, List.flatMap_append]
  by_cases same : operation.key = key
  · simp [same]
  · simp [same]

theorem editsUnder_eq_nil {key : String} {operations : List Operation} (unused : key ∉ operations.map (·.key)) :
    editsUnder key operations = [] := by
  have none : operations.filter (·.key = key) = [] := by
    rw [List.filter_eq_nil_iff]
    intro operation member same
    exact unused (List.mem_map.mpr ⟨operation, member, of_decide_eq_true same⟩)
  rw [editsUnder, none, List.flatMap_nil]

theorem Accounts.nil : Accounts [] none := ⟨by simp, rfl, fun _ => rfl⟩

/-- One more operation is accounted for. -/
theorem Accounts.concat {operations : List Operation} {configurations : Option (Ledger RestConfigurationDraft)}
    (accounts : Accounts operations configurations) (operation : Operation) :
    Accounts (operations ++ [operation]) (some (operation.apply (configurations.getD .empty))) where
  absent := by simp
  keys := by
    rw [Option.getD_some, Operation.apply, Ledger.keys_put, accounts.keys, List.map_append, List.map_singleton,
      eraseDups_concat]
    simp only [List.mem_eraseDups]
  drafts := by
    intro key
    rw [Option.getD_some, Operation.apply, Ledger.get?_put, editsUnder_concat, accounts.drafts operation.key,
      accounts.drafts key]
    by_cases same : key = operation.key
    · subst same
      by_cases used : operation.key ∈ operations.map (·.key)
      · simp [used, List.foldl_append]
      · simp [used, editsUnder_eq_nil used]
    · simp [same, Ne.symm same]

/-! ### Runs -/

/-- The operations of instructions. -/
def operations (reach : Reach) (instructions : List Instruction) : List Operation :=
  instructions.filterMap (Instruction.operation? reach)

theorem operations_append (reach : Reach) (first later : List Instruction) :
    operations reach (first ++ later) = operations reach first ++ operations reach later :=
  List.filterMap_append

/-- Instructions that are not about REST configurations have no operation. -/
theorem operations_singleton_eq_nil {reach : Reach} {i : Instruction}
    (other : ∀ component calls, i ≠ .restConfiguration component calls) : operations reach [i] = [] := by
  cases i with
  | restConfiguration component calls => exact absurd rfl (other component calls)
  | route | rest | invoke | throw | «return» => rfl

/-- A plain instruction that succeeds is accounted for: by its operation on a REST configuration if it is one, and
otherwise it leaves the REST configurations as they are. -/
theorem Accounts.perform {reach : Reach} {i : Instruction} {done : List Operation} {d d' : Definitions}
    (accounts : Accounts done d.configurations) (plain : i.Plain) (performed : i.perform reach d = (.ok (), d')) :
    Accounts (done ++ operations reach [i]) d'.configurations ∧
      ∀ component calls, i = .restConfiguration component calls → (i.operation? reach).isSome := by
  unfold Instruction.perform at performed
  cases i with
  | invoke method => exact absurd rfl (plain.noCall method)
  | «return» => exact absurd rfl plain.noReturn
  | throw exception message =>
    rw [runInstructions_throw_run] at performed
    split at performed <;> cases performed
  | route origin calls =>
    rw [runInstructions_route_run] at performed
    split at performed
    · obtain ⟨_, rfl⟩ := Prod.mk.inj performed
      have unrelated : operations reach [.route origin calls] = [] := operations_singleton_eq_nil nofun
      rw [unrelated, List.append_nil]
      exact ⟨accounts, nofun⟩
    · cases performed
  | rest path calls =>
    rw [runInstructions_rest_run] at performed
    split at performed
    · obtain ⟨_, rfl⟩ := Prod.mk.inj performed
      have unrelated : operations reach [.rest path calls] = [] := operations_singleton_eq_nil nofun
      rw [unrelated, List.append_nil]
      exact ⟨accounts, nofun⟩
    · cases performed
  | restConfiguration component calls =>
    rw [runInstructions_restConfiguration] at performed
    obtain ⟨operation, found⟩ := exists_operation_of_ok performed
    rw [runRestConfiguration_of_operation? found] at performed
    obtain ⟨_, rfl⟩ := Prod.mk.inj performed
    refine ⟨?_, fun _ _ _ => by rw [found]; rfl⟩
    rw [operations, List.filterMap_cons_some found, List.filterMap_nil]
    exact accounts.concat operation

/-- What an execution performs is accounted for. -/
theorem Accounts.executes {p : Program} {reach : Reach} {s t : RunState} {trace : List Instruction}
    (executes : p.Executes reach s trace t) {done : List Operation}
    (accounts : Accounts done s.definitions.configurations) :
    Accounts (done ++ operations reach trace) t.definitions.configurations ∧
      ∀ component calls, .restConfiguration component calls ∈ trace →
        ((Instruction.restConfiguration component calls).operation? reach).isSome := by
  induction executes generalizing done with
  | refl => exact ⟨by simpa [operations] using accounts, nofun⟩
  | step step _ ih =>
    cases step with
    | @perform i later outer d d' plain performed =>
      obtain ⟨accounts, evaluated⟩ := accounts.perform plain performed
      obtain ⟨rest, others⟩ := ih accounts
      refine ⟨?_, fun component calls member => ?_⟩
      · rw [Option.toList_some, operations_append, ← List.append_assoc]
        exact rest
      · obtain rfl | member := List.mem_cons.mp member
        · exact evaluated component calls rfl
        · exact others component calls member
    | enter | «return» | finish => exact ih accounts

end RouteDepot.RouteClass
