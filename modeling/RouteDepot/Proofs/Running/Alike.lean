import Mathlib.Data.List.Forall2
import Mathlib.Data.Option.Defs
import RouteDepot.Proofs.Running

/-! # Runs that end alike

Two runs end alike when they have the same result and leave the same routes and services, and REST configurations
that are related. What single instructions have in common in this way, whole runs have, and so do programs whose
methods are run alike.
-/

namespace RouteDepot.RouteClass

open Operand (Reach)

/-- In what way outcomes are alike: how their REST configurations are related, and for which faults the second outcome
need not be like the first one. -/
structure Likeness where
  relates : Option (Ledger RestConfigurationDraft) → Option (Ledger RestConfigurationDraft) → Prop
  excuses : ConfigureError → Prop

/-- Definitions with the same routes and services, and with related REST configurations. -/
structure Likeness.Holds (l : Likeness) (d d' : Definitions) : Prop where
  routes : d.routes = d'.routes
  services : d.services = d'.services
  configurations : l.relates d.configurations d'.configurations

/-- The second outcome is excused, or both have the same result and definitions that are alike. -/
def Likeness.Ends (l : Likeness) (first second : Outcome) : Prop :=
  (∃ fault, second.1 = .error fault ∧ l.excuses fault) ∨ first.1 = second.1 ∧ l.Holds first.2 second.2

/-- From definitions that are alike, two runs end alike. -/
def Likeness.Runs (l : Likeness) (first second : Run Unit) : Prop :=
  ∀ d d' : Definitions, l.Holds d d' → l.Ends (first.run.run d) (second.run.run d')

namespace Likeness

variable {l : Likeness} {reach : Reach} {call call' : String → Run Unit}

theorem Runs.pure : l.Runs (Pure.pure ()) (Pure.pure ()) := fun _ _ alike => .inr ⟨rfl, alike⟩

theorem Runs.bind {first first' next next' : Run Unit} (begins : l.Runs first first') (goesOn : l.Runs next next') :
    l.Runs (do first; next) (do first'; next') := by
  intro d d' alike
  rw [ExceptT.run_bind_state, ExceptT.run_bind_state]
  obtain ⟨fault, failed, excused⟩ | ⟨results, alike⟩ := begins d d' alike
  · rcases ran : first'.run.run d' with ⟨fault' | _, _⟩
    · rw [ran] at failed
      obtain rfl := Except.error.inj failed
      exact .inl ⟨fault', rfl, excused⟩
    · rw [ran] at failed
      cases failed
  · rcases ran : first.run.run d with ⟨result, between⟩
    rcases ran' : first'.run.run d' with ⟨result', between'⟩
    rw [ran, ran'] at results alike
    obtain rfl : result = result' := results
    cases result with
    | error fault => exact .inr ⟨rfl, alike⟩
    | ok _ => exact goesOn between between' alike

/-- An instruction runs alike with methods that run alike, when REST configurations do. -/
theorem runs_singleton (calls : ∀ method, l.Runs (call method) (call' method)) {i : Instruction}
    (configurations : ∀ component calls, i = .restConfiguration component calls →
      l.Runs (runRestConfiguration reach component calls) (runRestConfiguration reach component calls)) :
    l.Runs (runInstructions reach call [i]) (runInstructions reach call' [i]) := by
  cases i with
  | «return» => exact .pure
  | invoke method =>
    rw [runInstructions_invoke, runInstructions_invoke]
    exact calls method
  | restConfiguration component calls =>
    rw [runInstructions_restConfiguration, runInstructions_restConfiguration]
    exact configurations component calls rfl
  | route origin calls =>
    intro d d' alike
    rw [runInstructions_route_run, runInstructions_route_run]
    cases buildRoute reach origin calls with
    | error fault => exact .inr ⟨rfl, alike⟩
    | ok route => exact .inr ⟨rfl, congrArg (· ++ [route]) alike.routes, alike.services, alike.configurations⟩
  | rest path calls =>
    intro d d' alike
    rw [runInstructions_rest_run, runInstructions_rest_run]
    cases buildRest reach path calls with
    | error fault => exact .inr ⟨rfl, alike⟩
    | ok service => exact .inr ⟨rfl, alike.routes, congrArg (· ++ [service]) alike.services, alike.configurations⟩
  | throw exception message =>
    intro d d' alike
    rw [runInstructions_throw_run, runInstructions_throw_run]
    cases Operand.evalOptional reach message with
    | error fault => exact .inr ⟨rfl, alike⟩
    | ok text => exact .inr ⟨rfl, alike⟩

/-- Instructions run alike when the first ones do, and the later ones do. -/
theorem runs_cons {i i' : Instruction} (returns : i = .return ↔ i' = .return)
    (first : l.Runs (runInstructions reach call [i]) (runInstructions reach call' [i']))
    {instructions instructions' : List Instruction}
    (later : l.Runs (runInstructions reach call instructions) (runInstructions reach call' instructions')) :
    l.Runs (runInstructions reach call (i :: instructions)) (runInstructions reach call' (i' :: instructions')) := by
  by_cases ends : i = .return
  · obtain rfl := returns.mp ends
    subst ends
    exact .pure
  · rw [runInstructions_cons ends, runInstructions_cons (mt returns.mpr ends)]
    exact first.bind later

/-- Instructions run alike when those of the one list run like those of the other, one by one. -/
theorem runs_forall₂ {related : Instruction → Instruction → Prop}
    (singles : ∀ i i', related i i' → l.Runs (runInstructions reach call [i]) (runInstructions reach call' [i']))
    (returns : ∀ i i', related i i' → (i = .return ↔ i' = .return)) {instructions instructions' : List Instruction}
    (pairs : List.Forall₂ related instructions instructions') :
    l.Runs (runInstructions reach call instructions) (runInstructions reach call' instructions') := by
  induction pairs with
  | nil => exact .pure
  | @cons i i' _ _ first _ ih => exact runs_cons (returns i i' first) (singles i i' first) ih

/-- Methods run alike with any room for open calls, when their bodies do with methods that run alike. -/
theorem runs_call {p p' : Program} (names : p.name = p'.name)
    (bodies : ∀ {call call' : String → Run Unit}, (∀ method, l.Runs (call method) (call' method)) → ∀ method,
      Option.Rel (fun body body' => l.Runs (runInstructions reach call body) (runInstructions reach call' body'))
        (p.methods.get? method) (p'.methods.get? method))
    (room : Nat) (method : String) : l.Runs (p.call reach room method) (p'.call reach room method) := by
  induction room generalizing method with
  | zero => exact fun d d' alike => .inr ⟨rfl, alike⟩
  | succ room ih =>
    simp only [Program.call]
    have bodies := bodies ih method
    generalize p.methods.get? method = body, p'.methods.get? method = body' at bodies ⊢
    cases bodies with
    | none =>
      intro d d' alike
      rw [names]
      exact .inr ⟨rfl, alike⟩
    | some alike => exact alike

end Likeness

end RouteDepot.RouteClass
