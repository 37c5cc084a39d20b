import RouteDepot.Proofs.Calls.Inlining
import RouteDepot.Proofs.Calls.Machine
import RouteDepot.Proofs.Safety.Compilation

/-! # Configuring with calls

The methods of a program that compiles may call each other in any way, also in circles: configuring an instance always
comes to an end. Where calls are nested no deeper than the limit, they can be read as the instructions of the called
methods in their place. A call that goes beyond the limit fails, and what was defined before it stays defined.
-/

namespace RouteDepot.RouteClass

open Operand (Reach)

/-- The methods of an accepted class that is not abstract call methods that exist, and leave their bodies at the end
only. -/
theorem ClassDeclaration.Accepted.orderly {c : ClassDeclaration} {fields : List (String × Value)}
    {bodies : List (Option (String × List Instruction))} {p : Program} (accepted : c.Accepted fields bodies p)
    (concrete : p.isAbstract = false) : p.Orderly where
  exitsLast := fun name _ stored => accepted.exitsLast (.inr ⟨name, stored⟩)
  defined := fun _ _ stored method member =>
    let closed := accepted.closed concrete
    closed.defined method ((closed.sound _ _ stored _ member).declared method rfl)

/-- What the calls in a body are to a run of the body with a given outcome. -/
structure Program.CallsInlined (p : Program) (reach : Reach) (body : List Instruction) (outcome : Outcome) :
    Prop where
  /-- There is no infinite sequence of steps. -/
  terminates : Acc (fun after before => ∃ performed, p.Step reach before performed after) ⟨[body], {}⟩
  /-- The steps lead to a stop, with the outcome. -/
  stops : ∃ trace t, p.Executes reach ⟨[body], {}⟩ trace t ∧ p.Stops reach t outcome
  /-- Where calls are nested no deeper than the limit, replacing them leads to one list of instructions without calls,
  which has the same outcome. -/
  inlined : p.NestedWithin callDepthLimit body →
    ∃ flat, p.Flattens body flat ∧ (∀ other, p.Flattens body other → other = flat) ∧
      ∀ call, (runInstructions reach call flat).run.run {} = outcome
  /-- When a call beyond the limit is reached, the run fails there and keeps what was defined before, which is what the
  instructions performed before define by themselves. -/
  overflows : ∀ trace method later outer d,
    p.Executes reach ⟨[body], {}⟩ trace ⟨(.invoke method :: later) :: outer, d⟩ → outer.length = callDepthLimit →
      outcome = (.error (.raised overflowException s!"call depth exceeded {callDepthLimit} at {method}()"), d) ∧
        ∀ call, (runInstructions reach call trace).run.run {} = (.ok (), d)

/-- The calls in a body are inlined by a run of the body, when methods are orderly. -/
theorem Program.Orderly.callsInlined {p : Program} (orderly : p.Orderly) {name : String} {body : List Instruction}
    (stored : p.methods.get? name = some body) (reach : Reach) :
    p.CallsInlined reach body ((p.run reach body).run.run {}) where
  terminates := by
    obtain ⟨_, _, executes, stops⟩ := p.executes_run reach body {}
    exact executes.acc stops
  stops := p.executes_run reach body {}
  inlined := by
    intro nested
    have defined := orderly.defined name body stored
    refine ⟨p.inline callDepthLimit body, (flattens_iff orderly nested defined).mpr rfl,
      fun other => (flattens_iff orderly nested defined).mp, fun call => ?_⟩
    rw [Program.run, run_inline orderly reach call nested defined]
  overflows := by
    intro trace method later outer d executes deep
    exact ⟨executes.outcome_eq (.tooDeep (Nat.le_of_eq deep.symm)), executes.run_trace⟩

/-- Calls of methods are inlined when an instance of a program that compiles is configured, whether or not a context is
bound: bodies are left at their last instruction only, every run ends, and calls beyond the limit make it fail. -/
theorem configure_inlines_calls {qualifiedName source : String} {p : Program}
    (compiled : compile qualifiedName source = .ok p) :
    (∀ instructions, p.HasBody instructions → ExitsLast instructions) ∧
      ∀ i reach, Instance.create p = .ok i →
        match p.methods.get? "configure" with
        | none => { i with reach }.configure.2 = .error (.misused (.missingConfigure p.name))
        | some body =>
          p.CallsInlined reach body ({ i with reach }.configure.2, { i with reach }.configure.1.definitions) := by
  obtain ⟨u, c, _, _, lowered⟩ := exists_of_compile_eq_ok compiled
  obtain ⟨fields, bodies, accepted⟩ := ClassDeclaration.accepted_of_lower lowered
  refine ⟨fun instructions body => accepted.exitsLast body, fun i reach created => ?_⟩
  obtain ⟨concrete, rfl⟩ := Instance.eq_of_create_eq_ok accepted created
  simp only [Instance.configure, Bool.false_eq_true, if_false]
  cases stored : p.methods.get? "configure" with
  | none => rfl
  | some body => exact (accepted.orderly concrete).callsInlined stored reach

/-- A route builder whose methods call each other in circles. -/
def circlingSource : String :=
  "class Circling extends RouteBuilder \x7b void configure() \x7b \x7b greet(); \x7d circle(); \x7d " ++
  "void greet() \x7b from(\"a\").log(\"b\"); return; \x7d void circle() \x7b greet(); circle(); \x7d \x7d"

/-- Circling ends in front of the call that goes too deep, with one route for every greeting before. -/
theorem configure_inlines_calls_circling :
    ∃ p i body, compile "Circling" circlingSource = .ok p ∧ Instance.create p = .ok i ∧
      p.methods.get? "configure" = some body ∧
      (∀ reach, p.CallsInlined reach body ({ i with reach }.configure.2, { i with reach }.configure.1.definitions)) ∧
      i.configure.2 = .error (.raised overflowException "call depth exceeded 64 at greet()") ∧
      i.configure.1.definitions.routes.length = 64 := by
  have ran : ((compile "Circling" circlingSource).toOption.bind fun p => (p.methods.get? "configure").bind fun _ =>
      (Instance.create p).toOption.map fun i => (i.configure.2, i.configure.1.definitions.routes.length)) =
        some (.error (.raised overflowException "call depth exceeded 64 at greet()"), 64) := by
    have lexed : Lexed.ofSource circlingSource = _ := Lexed.ofSource_eq
      (Lexed.toList_append_eq String.toList_ofList String.toList_ofList)
    rw [compile, lexed]
    decide +kernel
  obtain ⟨p, compiled, ran⟩ := Option.bind_eq_some_iff.mp ran
  obtain ⟨body, stored, ran⟩ := Option.bind_eq_some_iff.mp ran
  obtain ⟨i, created, ran⟩ := Option.map_eq_some_iff.mp ran
  obtain ⟨failed, routes⟩ := Prod.mk.inj ran
  have compiled := Except.eq_ok_of_toOption compiled
  have created := Except.eq_ok_of_toOption created
  refine ⟨p, i, body, compiled, created, stored, fun reach => ?_, failed, routes⟩
  have inlined := (configure_inlines_calls compiled).2 i reach created
  rwa [stored] at inlined

end RouteDepot.RouteClass
