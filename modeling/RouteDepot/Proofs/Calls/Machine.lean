import RouteDepot.Proofs.Running

/-! # Runs step by step

A run of a program as a machine with a stack: on the stack is what is left to run of the bodies of the open calls, the
innermost one on top. A step performs one instruction, opens a call or closes one. The machine has at most one step
from every state, it always comes to a stop, and it stops with the outcome of the run.
-/

namespace RouteDepot.RouteClass

open Operand (Reach)

/-- What a single instruction does by itself. -/
def Instruction.perform (reach : Reach) (i : Instruction) (d : Definitions) : Outcome :=
  (runInstructions reach (fun _ => pure ()) [i]).run.run d

/-- An instruction that neither calls a method nor returns from one. -/
structure Instruction.Plain (i : Instruction) : Prop where
  noCall : ∀ method, i ≠ .invoke method
  noReturn : i ≠ .return

/-- A plain instruction does the same in every program. -/
theorem Instruction.Plain.run_eq {i : Instruction} (plain : i.Plain) (reach : Reach) (call : String → Run Unit)
    (d : Definitions) : (runInstructions reach call [i]).run.run d = i.perform reach d := by
  have noCall (method : String) : .invoke method ∉ [i] := by simpa [eq_comm] using plain.noCall method
  rw [perform, runInstructions_of_noCall noCall]

/-! ### Steps -/

/-- A state of a run. -/
structure RunState where
  /-- What is left to run of the bodies of the open calls, the innermost first; the last body is that of the method
  that was run in the first place. -/
  bodies : List (List Instruction)
  definitions : Definitions

namespace Program

variable (p : Program) (reach : Reach)

/-- One step of a run, with the instruction that it performs, if any. A call can be opened as long as not too many are
open: the bodies below the innermost one are those of its open callers. -/
inductive Step : RunState → Option Instruction → RunState → Prop
  | perform {i : Instruction} {later : List Instruction} {outer : List (List Instruction)} {d d' : Definitions} :
      i.Plain → i.perform reach d = (.ok (), d') → Step ⟨(i :: later) :: outer, d⟩ (some i) ⟨later :: outer, d'⟩
  | enter {method : String} {body later : List Instruction} {outer : List (List Instruction)} {d : Definitions} :
      outer.length < callDepthLimit → p.methods.get? method = some body →
      Step ⟨(.invoke method :: later) :: outer, d⟩ none ⟨body :: later :: outer, d⟩
  | return {later : List Instruction} {outer : List (List Instruction)} {d : Definitions} :
      Step ⟨(.return :: later) :: outer, d⟩ none ⟨outer, d⟩
  | finish {outer : List (List Instruction)} {d : Definitions} : Step ⟨[] :: outer, d⟩ none ⟨outer, d⟩

/-- A run stops when nothing is left to run, when an instruction fails, when a call goes too deep, or when the method
that is called does not exist. -/
inductive Stops : RunState → Outcome → Prop
  | finished {d : Definitions} : Stops ⟨[], d⟩ (.ok (), d)
  | fails {i : Instruction} {later : List Instruction} {outer : List (List Instruction)} {d d' : Definitions}
      {fault : ConfigureError} : i.Plain → i.perform reach d = (.error fault, d') →
      Stops ⟨(i :: later) :: outer, d⟩ (.error fault, d')
  | tooDeep {method : String} {later : List Instruction} {outer : List (List Instruction)} {d : Definitions} :
      callDepthLimit ≤ outer.length → Stops ⟨(.invoke method :: later) :: outer, d⟩
        (.error (.raised overflowException s!"call depth exceeded {callDepthLimit} at {method}()"), d)
  | missing {method : String} {later : List Instruction} {outer : List (List Instruction)} {d : Definitions} :
      outer.length < callDepthLimit → p.methods.get? method = none →
      Stops ⟨(.invoke method :: later) :: outer, d⟩ (.error (.misused (.missingMethod method p.name)), d)

/-- Steps one after another, with the instructions that they perform. -/
inductive Executes : RunState → List Instruction → RunState → Prop
  | refl (s : RunState) : Executes s [] s
  | step {s t u : RunState} {performed : Option Instruction} {trace : List Instruction} :
      Step p reach s performed t → Executes t trace u → Executes s (performed.toList ++ trace) u

end Program

variable {p : Program} {reach : Reach}

/-! ### Determinism -/

namespace Program

theorem Step.unique {s t t' : RunState} {performed performed' : Option Instruction}
    (first : p.Step reach s performed t) (second : p.Step reach s performed' t') :
    performed = performed' ∧ t = t' := by
  cases first with
  | perform plain ran =>
    cases second with
    | perform _ ran' =>
      obtain ⟨_, rfl⟩ := Prod.mk.inj (ran.symm.trans ran')
      exact ⟨rfl, rfl⟩
    | enter => exact absurd rfl (plain.noCall _)
    | «return» => exact absurd rfl plain.noReturn
  | enter _ stored =>
    cases second with
    | perform plain => exact absurd rfl (plain.noCall _)
    | enter _ stored' =>
      obtain rfl := Option.some.inj (stored.symm.trans stored')
      exact ⟨rfl, rfl⟩
  | «return» =>
    cases second with
    | perform plain => exact absurd rfl plain.noReturn
    | «return» => exact ⟨rfl, rfl⟩
  | finish =>
    cases second
    exact ⟨rfl, rfl⟩

/-- A run that stops without a fault has nothing left to run. -/
theorem Stops.eq_of_ok {s : RunState} {outcome : Outcome} (stops : p.Stops reach s outcome)
    (success : outcome.1 = .ok ()) : s = ⟨[], outcome.2⟩ := by
  cases stops with
  | finished => rfl
  | fails | tooDeep | missing => cases success

/-- A run that stops has no step left. -/
theorem Stops.not_step {s t : RunState} {outcome : Outcome} {performed : Option Instruction}
    (stops : p.Stops reach s outcome) : ¬ p.Step reach s performed t := by
  intro step
  cases stops with
  | finished => cases step
  | fails plain ran =>
    cases step with
    | perform _ ran' => cases ran.symm.trans ran'
    | enter => exact absurd rfl (plain.noCall _)
    | «return» => exact absurd rfl plain.noReturn
  | tooDeep deep =>
    cases step with
    | perform plain => exact absurd rfl (plain.noCall _)
    | enter room => omega
  | missing _ absent =>
    cases step with
    | perform plain => exact absurd rfl (plain.noCall _)
    | enter _ stored => cases absent.symm.trans stored

theorem Stops.unique {s : RunState} {outcome outcome' : Outcome} (first : p.Stops reach s outcome)
    (second : p.Stops reach s outcome') : outcome = outcome' := by
  cases first with
  | finished =>
    cases second
    rfl
  | fails plain ran =>
    cases second with
    | fails _ ran' => exact ran.symm.trans ran'
    | tooDeep | missing => exact absurd rfl (plain.noCall _)
  | tooDeep deep =>
    cases second with
    | fails plain => exact absurd rfl (plain.noCall _)
    | tooDeep => rfl
    | missing room => omega
  | missing room =>
    cases second with
    | fails plain => exact absurd rfl (plain.noCall _)
    | tooDeep => omega
    | missing => rfl

theorem Executes.trans {s t u : RunState} {trace more : List Instruction} (first : p.Executes reach s trace t)
    (second : p.Executes reach t more u) : p.Executes reach s (trace ++ more) u := by
  induction first with
  | refl => exact second
  | step step _ ih =>
    rw [List.append_assoc]
    exact .step step (ih second)

/-- Whatever is executed from a state is a part of the execution that comes to a stop. -/
theorem Executes.within {s t u : RunState} {trace more : List Instruction} {outcome : Outcome}
    (executes : p.Executes reach s trace t) (stopping : p.Executes reach s more u) (stops : p.Stops reach u outcome) :
    ∃ rest, p.Executes reach t rest u ∧ more = trace ++ rest := by
  induction executes generalizing more with
  | refl => exact ⟨more, stopping, rfl⟩
  | step step _ ih =>
    cases stopping with
    | refl => exact absurd step stops.not_step
    | step step' stopping =>
      obtain ⟨rfl, rfl⟩ := step.unique step'
      obtain ⟨rest, remaining, rfl⟩ := ih stopping
      exact ⟨rest, remaining, (List.append_assoc ..).symm⟩

/-- A run that comes to a stop stops in one way only. -/
theorem Executes.stops_unique {s t u : RunState} {trace more : List Instruction} {outcome outcome' : Outcome}
    (first : p.Executes reach s trace t) (stops : p.Stops reach t outcome) (second : p.Executes reach s more u)
    (stops' : p.Stops reach u outcome') : trace = more ∧ outcome = outcome' := by
  obtain ⟨rest, remaining, rfl⟩ := first.within second stops'
  cases remaining with
  | refl => exact ⟨(List.append_nil _).symm, stops.unique stops'⟩
  | step step _ => exact absurd step stops.not_step

/-- A run that comes to a stop has no infinite sequence of steps. -/
theorem Executes.acc {s t : RunState} {trace : List Instruction} {outcome : Outcome}
    (executes : p.Executes reach s trace t) (stops : p.Stops reach t outcome) :
    Acc (fun after before => ∃ performed, p.Step reach before performed after) s := by
  induction executes with
  | refl => exact .intro _ fun _ ⟨_, next⟩ => absurd next stops.not_step
  | step step _ ih =>
    refine .intro _ fun after ⟨_, step'⟩ => ?_
    obtain ⟨_, rfl⟩ := step.unique step'
    exact ih stops

/-! ### Runs as executions -/

/-- A run of what is on top of the stack goes on with the rest of the stack, or it stops because of a fault. -/
inductive RunsDown (p : Program) (reach : Reach) (outer : List (List Instruction)) (s : RunState) : Outcome → Prop
  | returns {trace : List Instruction} {d : Definitions} : p.Executes reach s trace ⟨outer, d⟩ →
      RunsDown p reach outer s (.ok (), d)
  | fails {trace : List Instruction} {t : RunState} {fault : ConfigureError} {d : Definitions} :
      p.Executes reach s trace t → p.Stops reach t (.error fault, d) → RunsDown p reach outer s (.error fault, d)

theorem RunsDown.after {outer : List (List Instruction)} {s t : RunState} {trace : List Instruction}
    {outcome : Outcome} (executes : p.Executes reach s trace t) (runs : p.RunsDown reach outer t outcome) :
    p.RunsDown reach outer s outcome := by
  cases runs with
  | returns rest => exact .returns (executes.trans rest)
  | fails rest stops => exact .fails (executes.trans rest) stops

theorem RunsDown.next {outer : List (List Instruction)} {s t : RunState} {performed : Option Instruction}
    {outcome : Outcome} (step : p.Step reach s performed t) (runs : p.RunsDown reach outer t outcome) :
    p.RunsDown reach outer s outcome :=
  runs.after (.step step (.refl t))

/-- A body is executed as it is run when this holds for the calls in it. -/
theorem runsDown_of_calls {room : Nat} {outer : List (List Instruction)}
    (calls : ∀ method later d, p.RunsDown reach (later :: outer) ⟨(.invoke method :: later) :: outer, d⟩
      ((p.call reach room method).run.run d)) (body : List Instruction) (d : Definitions) :
    p.RunsDown reach outer ⟨body :: outer, d⟩ ((runInstructions reach (p.call reach room) body).run.run d) := by
  induction body generalizing d with
  | nil => exact .next .finish (.returns (.refl _))
  | cons i later ih =>
    by_cases returns : i = .return
    · subst returns
      exact .next .return (.returns (.refl _))
    · rw [runInstructions_cons returns, ExceptT.run_bind_state]
      by_cases invokes : ∃ method, i = .invoke method
      · obtain ⟨method, rfl⟩ := invokes
        rw [runInstructions_invoke]
        have called := calls method later d
        generalize (p.call reach room method).run.run d = outcome at called
        cases called with
        | returns executes => exact (ih _).after executes
        | fails executes stops => exact .fails executes stops
      · have plain : i.Plain := ⟨fun method same => invokes ⟨method, same⟩, returns⟩
        rw [plain.run_eq]
        rcases performed : i.perform reach d with ⟨fault | _, d'⟩
        · exact .fails (.refl _) (.fails plain performed)
        · exact .next (.perform plain performed) (ih d')

/-- A body is executed as it is run, with room for as many calls as are not open yet. -/
theorem runsDown_body {room : Nat} {outer : List (List Instruction)} (depth : outer.length + room = callDepthLimit)
    (body : List Instruction) (d : Definitions) :
    p.RunsDown reach outer ⟨body :: outer, d⟩ ((runInstructions reach (p.call reach room) body).run.run d) := by
  induction room generalizing outer body d with
  | zero =>
    refine runsDown_of_calls (fun method later d => ?_) body d
    exact .fails (.refl _) (.tooDeep (by omega))
  | succ room ih =>
    refine runsDown_of_calls (fun method later d => ?_) body d
    rw [call]
    cases stored : p.methods.get? method with
    | none => exact .fails (.refl _) (.missing (by omega) stored)
    | some callee =>
      have deeper : (later :: outer).length + room = callDepthLimit := by
        rw [List.length_cons]
        omega
      exact .next (.enter (by omega) stored) (ih deeper callee d)

/-- A run comes to a stop, with its outcome. -/
theorem executes_run (p : Program) (reach : Reach) (body : List Instruction) (d : Definitions) :
    ∃ trace t, p.Executes reach ⟨[body], d⟩ trace t ∧ p.Stops reach t ((p.run reach body).run.run d) := by
  have runs : p.RunsDown reach [] ⟨[body], d⟩ ((p.run reach body).run.run d) := runsDown_body (by simp) body d
  generalize (p.run reach body).run.run d = outcome at runs
  cases runs with
  | returns executes => exact ⟨_, _, executes, .finished⟩
  | fails executes stops => exact ⟨_, _, executes, stops⟩

/-- However a run is executed, it stops with its outcome. -/
theorem Executes.outcome_eq {body : List Instruction} {d : Definitions} {trace : List Instruction} {t : RunState}
    {outcome : Outcome} (executes : p.Executes reach ⟨[body], d⟩ trace t) (stops : p.Stops reach t outcome) :
    (p.run reach body).run.run d = outcome := by
  obtain ⟨_, _, executed, stopped⟩ := executes_run p reach body d
  exact (executed.stops_unique stopped executes stops).2

/-- What is defined by the instructions that were performed is what a run has defined. -/
theorem Executes.run_trace {s t : RunState} {trace : List Instruction} (executes : p.Executes reach s trace t)
    (call : String → Run Unit) :
    (runInstructions reach call trace).run.run s.definitions = (.ok (), t.definitions) := by
  induction executes with
  | refl => rfl
  | step step _ ih =>
    cases step with
    | perform plain performed =>
      rw [Option.toList_some, List.singleton_append, runInstructions_cons plain.noReturn, ExceptT.run_bind_state,
        plain.run_eq, performed]
      exact ih
    | enter | «return» | finish => exact ih

end Program

end RouteDepot.RouteClass
