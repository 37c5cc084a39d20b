import RouteDepot.Proofs.Configuration.Rearranging
import RouteDepot.Proofs.Safety.Compilation

/-! # REST configurations of instances

What statements on REST configurations come to when an instance is configured: they act key by key, in whatever methods
they stand and whatever stands between them. So those for different keys may change places, and those for one key may
be written as one statement or as several.
-/

namespace RouteDepot.RouteClass

open Operand (Reach)

/-- What statements on REST configurations come to, given the instructions that were performed. -/
structure ConfiguredPerKey (reach : Reach) (performed : List Instruction)
    (configurations : Option (Ledger RestConfigurationDraft)) : Prop where
  /-- Every instruction on a REST configuration that was performed has an operation. -/
  evaluated : ∀ component calls, .restConfiguration component calls ∈ performed →
    ((Instruction.restConfiguration component calls).operation? reach).isSome
  /-- The keys are those of the operations, and under each is a fresh draft with the edits under that key. -/
  accounts : Accounts (operations reach performed) configurations
  /-- Under a key an option has the last text that it was given under that key; the component starts with the key. -/
  options : ∀ key draft option, (configurations.getD .empty).get? key = some draft →
    option.get draft = ((editsUnder key (operations reach performed)).filterMap (Edit.text? option)).getLast?.or
      (if option = .component ∧ key ≠ "" then some key else none)
  /-- Under a key a free property of a group has the last text that it was given under that key. -/
  properties : ∀ key draft group name, (configurations.getD .empty).get? key = some draft →
    (group.get draft).get? name =
      ((editsUnder key (operations reach performed)).filterMap (Edit.propertyText? group name)).getLast?

/-- What is held under a key is a fresh draft with the edits under that key. -/
theorem Accounts.draft_eq {done : List Operation} {configurations : Option (Ledger RestConfigurationDraft)}
    (accounts : Accounts done configurations) {key : String} {draft : RestConfigurationDraft}
    (held : (configurations.getD .empty).get? key = some draft) :
    draft = (editsUnder key done).foldl Edit.apply (freshDraft key) := by
  rw [accounts.drafts] at held
  split at held
  · exact (Option.some.inj held).symm
  · cases held

/-- What an execution performs is configured per key. -/
theorem configuredPerKey_of_executes {p : Program} {reach : Reach} {s t : RunState} {trace : List Instruction}
    (executes : p.Executes reach s trace t) (undefined : s.definitions.configurations = none) :
    ConfiguredPerKey reach trace t.definitions.configurations := by
  obtain ⟨accounts, evaluated⟩ := Accounts.executes executes (undefined ▸ Accounts.nil)
  rw [List.nil_append] at accounts
  refine ⟨evaluated, accounts, fun key draft option held => ?_, fun key draft group name held => ?_⟩
  · rw [accounts.draft_eq held, Edit.get_foldl_apply, RestOption.get_freshDraft]
  · rw [accounts.draft_eq held, Edit.get?_foldl_apply, RestPropertyGroup.get_freshDraft]
    exact Option.or_none

/-! ### Programs -/

/-- Programs whose methods have related bodies. -/
structure Program.MethodsRelated (related : List Instruction → List Instruction → Prop) (p p' : Program) : Prop where
  name : p.name = p'.name
  bodies : ∀ method, Option.Rel related (p.methods.get? method) (p'.methods.get? method)

variable {p p' : Program} {reach : Reach}

/-- Methods whose instructions are rearranged end alike. -/
theorem Program.MethodsRelated.runs_call (rearranged : p.MethodsRelated (Rearranges reach) p') (room : Nat)
    (method : String) : sameButOrder.Runs (p.call reach room method) (p'.call reach room method) :=
  Likeness.runs_call rearranged.name
    (fun calls method => (rearranged.bodies method).imp fun _ _ rearranges => rearranges.runs calls) room method

/-- Methods whose instructions are split do the same. -/
theorem Program.MethodsRelated.call_eq (split : p.MethodsRelated (Splits reach) p') (room : Nat) :
    p.call reach room = p'.call reach room := by
  induction room with
  | zero => rfl
  | succ room ih =>
    funext method
    have bodies := split.bodies method
    simp only [Program.call, ih]
    generalize p.methods.get? method = body, p'.methods.get? method = body' at bodies ⊢
    cases bodies with
    | none => rw [split.name]
    | some splits => exact splits.run_eq _

/-! ### Instances -/

/-- What configuring an instance comes to. -/
def Instance.outcome (i : Instance) : Outcome := (i.configure.2, i.configure.1.definitions)

theorem Instance.outcome_eq {i : Instance} (new : i.isConfigured = false) :
    i.outcome = match i.program.methods.get? "configure" with
      | none => (.error (.misused (.missingConfigure i.program.name)), i.definitions)
      | some body => (i.program.run i.reach body).run.run i.definitions := by
  unfold outcome configure
  simp only [new, Bool.false_eq_true, if_false]
  cases i.program.methods.get? "configure" <;> rfl

/-- Statements on REST configurations act per key when a new instance is configured. Each state that configuring reaches
holds what the instructions performed before come to, and configuring that succeeds performs all of them. Rearranging
statements for different keys changes the order of the keys at most, and splitting statements changes nothing. -/
theorem Instance.configures_per_key {i : Instance} (new : i.isConfigured = false)
    (undefined : i.definitions.configurations = none) :
    (∀ body trace t, i.program.methods.get? "configure" = some body →
      i.program.Executes i.reach ⟨[body], i.definitions⟩ trace t →
      ConfiguredPerKey i.reach trace t.definitions.configurations) ∧
    (i.outcome.1 = .ok () → ∃ body trace, i.program.methods.get? "configure" = some body ∧
      i.program.Executes i.reach ⟨[body], i.definitions⟩ trace ⟨[], i.outcome.2⟩ ∧
      ConfiguredPerKey i.reach trace i.outcome.2.configurations) ∧
    (∀ p', i.program.MethodsRelated (Rearranges i.reach) p' → i.outcome.1 = { i with program := p' }.outcome.1 ∧
      sameButOrder.Holds i.outcome.2 { i with program := p' }.outcome.2) ∧
    ∀ p', i.program.MethodsRelated (Splits i.reach) p' → i.outcome = { i with program := p' }.outcome := by
  refine ⟨?_, ?_, ?_, ?_⟩
  · exact fun body trace t _ executes => configuredPerKey_of_executes executes undefined
  · intro success
    rw [outcome_eq new] at success ⊢
    cases stored : i.program.methods.get? "configure" with
    | none =>
      rw [stored] at success
      cases success
    | some body =>
      simp only [stored] at success ⊢
      obtain ⟨trace, t, executes, stops⟩ := i.program.executes_run i.reach body i.definitions
      obtain rfl : t = ⟨[], ((i.program.run i.reach body).run.run i.definitions).2⟩ := stops.eq_of_ok success
      exact ⟨body, trace, rfl, executes, configuredPerKey_of_executes executes undefined⟩
  · intro p' rearranged
    rw [outcome_eq new, outcome_eq (i := { i with program := p' }) new]
    have bodies := rearranged.bodies "configure"
    generalize i.program.methods.get? "configure" = body, p'.methods.get? "configure" = body' at bodies ⊢
    cases bodies with
    | none => exact ⟨by rw [rearranged.name], sameButOrder.holds_refl _⟩
    | some rearranges =>
      have alike := rearranges.runs (rearranged.runs_call callDepthLimit) _ _ (sameButOrder.holds_refl i.definitions)
      exact sameButOrder.ends_iff.mp alike
  · intro p' split
    rw [outcome_eq new, outcome_eq (i := { i with program := p' }) new]
    have bodies := split.bodies "configure"
    generalize i.program.methods.get? "configure" = body, p'.methods.get? "configure" = body' at bodies ⊢
    cases bodies with
    | none => rw [split.name]
    | some splits => simp only [Program.run, split.call_eq callDepthLimit, splits.run_eq]

/-- A route builder whose statements on REST configurations stand in two methods and take turns between two keys. -/
def keyedSource : String :=
  "class Keyed extends RouteBuilder \x7b void configure() \x7b restConfiguration(\"a\").host(\"x\").component(\"c\"); " ++
  "more(); \x7d void more() \x7b restConfiguration().port(1); restConfiguration(\"a\").host(\"y\"); \x7d \x7d"

/-- Configuring the route builder succeeds, and a statement in its second method edits what the first method left. -/
theorem Instance.configures_per_key_keyed :
    ∃ p i body trace, compile "Keyed" keyedSource = .ok p ∧ Instance.create p = .ok i ∧
      i.program.methods.get? "configure" = some body ∧
      i.program.Executes i.reach ⟨[body], i.definitions⟩ trace ⟨[], i.outcome.2⟩ ∧
      ConfiguredPerKey i.reach trace i.outcome.2.configurations ∧
      (i.outcome.2.configurations.getD .empty).entries.map (fun entry =>
        (entry.1, entry.2.component, entry.2.host)) = [("a", some "c", some "y"), ("", none, none)] := by
  have ran : ((compile "Keyed" keyedSource).toOption.bind fun p => (Instance.create p).toOption.map fun i =>
      (fun outcome : Outcome => (outcome.1, (outcome.2.configurations.getD .empty).entries.map fun entry =>
        (entry.1, entry.2.component, entry.2.host))) i.outcome) =
          some (.ok (), [("a", some "c", some "y"), ("", none, none)]) := by
    have lexed : Lexed.ofSource keyedSource = _ := Lexed.ofSource_eq
      (Lexed.toList_append_eq String.toList_ofList String.toList_ofList)
    rw [compile, lexed]
    decide +kernel
  obtain ⟨p, compiled, ran⟩ := Option.bind_eq_some_iff.mp ran
  obtain ⟨i, created, ran⟩ := Option.map_eq_some_iff.mp ran
  obtain ⟨success, held⟩ := Prod.mk.inj ran
  have compiled := Except.eq_ok_of_toOption compiled
  have created := Except.eq_ok_of_toOption created
  obtain ⟨_, _, _, _, lowered⟩ := exists_of_compile_eq_ok compiled
  obtain ⟨_, _, accepted⟩ := ClassDeclaration.accepted_of_lower lowered
  obtain ⟨_, rfl⟩ := Instance.eq_of_create_eq_ok accepted created
  obtain ⟨body, trace, stored, executes, configured⟩ := (Instance.configures_per_key rfl rfl).2.1 success
  exact ⟨p, _, body, trace, compiled, created, stored, executes, configured, held⟩

end RouteDepot.RouteClass
