import RouteDepot.Bundle
import RouteDepot.RouteClass.Definition

/-! # Instances

An instance of a program runs the instructions of its `configure` method, once, and collects what they define.
Methods may call methods of the same class; the depth of such calls is limited, so every run ends.
-/

namespace RouteDepot.RouteClass

open Operand (Reach evalOptional)

/-- What an instance has defined so far; REST configurations are absent until the first one is mentioned. -/
structure Definitions where
  routes : List Route := []
  services : List RestService := []
  configurations : Option (Ledger RestConfigurationDraft) := none

/-- A run: it changes the definitions, also when it fails. -/
abbrev Run (α : Type) := ExceptT ConfigureError (StateM Definitions) α

/-- The most calls that may be open at the same time. -/
def callDepthLimit : Nat := 64

/-- The exception of a call that goes too deep. -/
def overflowException : String := "java.lang.StackOverflowError"

/-! ### Running instructions -/

/-- A result that does not change the definitions. -/
def Run.ofExcept {α : Type} (result : Except ConfigureError α) : Run α := ExceptT.mk (pure result)

/-- Defines a REST configuration, or adds to the one for the same component. -/
def runRestConfiguration (reach : Reach) (component : Option Operand) (calls : List ConfigurationCall) :
    Run Unit := do
  let key := (← Run.ofExcept (evalOptional reach component)).getD ""
  let drafts := (← get).configurations.getD .empty
  let (draft, result) := applyConfigurationCalls reach ((drafts.get? key).getD (freshDraft key)) calls
  modify fun d => { d with configurations := some (drafts.put key draft) }
  Run.ofExcept result

/-- Runs instructions up to the first that returns or fails; `call` runs a method of the class. -/
def runInstructions (reach : Reach) (call : String → Run Unit) : List Instruction → Run Unit
  | [] => pure ()
  | .return :: _ => pure ()
  | .throw exception message :: _ => do
    let text ← Run.ofExcept (evalOptional reach message)
    throw (.raised exception (text.getD ""))
  | .route origin calls :: later => do
    let route ← Run.ofExcept (buildRoute reach origin calls)
    modify fun d => { d with routes := d.routes ++ [route] }
    runInstructions reach call later
  | .rest path calls :: later => do
    let service ← Run.ofExcept (buildRest reach path calls)
    modify fun d => { d with services := d.services ++ [service] }
    runInstructions reach call later
  | .restConfiguration component calls :: later => do
    runRestConfiguration reach component calls
    runInstructions reach call later
  | .invoke method :: later => do
    call method
    runInstructions reach call later

namespace Program

/-- Runs a method of a program, with room for a number of open calls. -/
def call (p : Program) (reach : Reach) : Nat → String → Run Unit
  | 0, method => throw (.raised overflowException s!"call depth exceeded {callDepthLimit} at {method}()")
  | room + 1, method =>
    match p.methods.get? method with
    | some body => runInstructions reach (p.call reach room) body
    | none => throw (.misused (.missingMethod method p.name))

/-- Runs instructions of a program. -/
def run (p : Program) (reach : Reach) (instructions : List Instruction) : Run Unit :=
  runInstructions reach (p.call reach callDepthLimit) instructions

end Program

/-! ### Instances -/

/-- Why a program has no instance. -/
inductive InstantiationError where
  | isAbstract (unit : String)
  | noDefaultConstructor (unit : String)
  | constructorThrew (unit exception message : String)
  deriving DecidableEq, Repr

/-- The wording of a failed instantiation. -/
def InstantiationError.message : InstantiationError → String
  | isAbstract unit => s!"'{unit}' is abstract; cannot be instantiated"
  | noDefaultConstructor unit => s!"'{unit}' has no accessible no-argument constructor"
  | constructorThrew unit exception message => s!"constructor of '{unit}' threw {exception}: {message}"

/-- The exception that stands for a failure that is none. -/
def illegalStateException : String := "java.lang.IllegalStateException"

/-- The exception and the message that a failure in a constructor is reported with. -/
def ConfigureError.thrown : ConfigureError → String × String
  | raised exception message => (exception, message)
  | other => (illegalStateException, other.message)

/-- One instance of a program. -/
structure Instance where
  program : Program
  /-- The properties of the context that was bound last. -/
  reach : Reach := none
  isConfigured : Bool := false
  definitions : Definitions := {}

namespace Instance

/-- The instance that the constructor without parameters makes. -/
def create (p : Program) : Except InstantiationError Instance :=
  if p.isAbstract then .error (.isAbstract p.qualifiedName)
  else match p.constructor with
    | none => .error (.noDefaultConstructor p.qualifiedName)
    | some body =>
      match (p.run none body).run.run {} with
      | (.ok (), definitions) => .ok { program := p, definitions }
      | (.error fault, _) =>
        let (exception, message) := fault.thrown
        .error (.constructorThrew p.qualifiedName exception message)

/-- The instance with the properties of a context bound. -/
def bind (i : Instance) (properties : Properties) : Instance := { i with reach := some properties }

/-- Runs `configure`, unless that was done before. The instance counts as configured also when the run fails. -/
def configure (i : Instance) : Instance × Except ConfigureError Unit :=
  if i.isConfigured then (i, .error .alreadyConfigured)
  else
    let i := { i with isConfigured := true }
    match i.program.methods.get? "configure" with
    | none => (i, .error (.misused (.missingConfigure i.program.name)))
    | some body =>
      let (result, definitions) := (i.program.run i.reach body).run.run i.definitions
      ({ i with definitions }, result)

/-- The bundle of an instance that is configured against properties; a class that is no route builder defines
nothing. -/
def bundle (i : Instance) (properties : Properties) : Except ConfigureError Bundle :=
  if i.program.isRouteBuilder then
    match (i.bind properties).configure with
    | (configured, .ok ()) =>
      let d := configured.definitions
      .ok ⟨d.routes, d.services, d.configurations.getD .empty⟩
    | (_, .error fault) => .error fault
  else .ok {}

end Instance

end RouteDepot.RouteClass
