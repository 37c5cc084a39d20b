import RouteDepot.Proofs.Configuration.Configured
import RouteDepot.Proofs.Once.Accumulated

/-! # Configuring once

Whatever sequence of calls an instance gets, the body of `configure` runs at the first call of `configure` and at no
other, against the context that was bound last before it. That run alone decides what is defined, also when it fails.
-/

namespace RouteDepot.RouteClass

open Operand (Reach)

/-! ### Sequences of calls -/

/-- A call of an instance from outside. -/
inductive BuilderCall where
  | setContext (properties : Properties)
  | configure
  deriving DecidableEq

namespace BuilderCall

/-- The context that a call binds, if it binds one. -/
def bound? : BuilderCall → Option Properties
  | setContext properties => some properties
  | configure => none

/-- The context in reach after calls: the one that was bound last. -/
def reachAfter (reach : Reach) (calls : List BuilderCall) : Reach := (calls.filterMap bound?).getLast?.or reach

/-- How a call is answered when `configure` has run before. -/
def answerAgain : BuilderCall → Except ConfigureError Unit
  | setContext _ => .ok ()
  | configure => .error .alreadyConfigured

theorem reachAfter_cons (reach : Reach) (call : BuilderCall) (later : List BuilderCall) :
    reachAfter reach (call :: later) = reachAfter (call.bound?.or reach) later :=
  Edit.last_or bound? call later reach

end BuilderCall

namespace Instance

/-- The instance after a call, and how the call is answered. -/
def perform (i : Instance) : BuilderCall → Instance × Except ConfigureError Unit
  | .setContext properties => (i.bind properties, .ok ())
  | .configure => i.configure

/-- The instance after calls, and how each of them is answered. -/
def performAll (i : Instance) : List BuilderCall → Instance × List (Except ConfigureError Unit)
  | [] => (i, [])
  | call :: later =>
    let (next, answer) := i.perform call
    let (last, answers) := next.performAll later
    (last, answer :: answers)

variable {i : Instance}

theorem performAll_cons (i : Instance) (call : BuilderCall) (later : List BuilderCall) :
    i.performAll (call :: later) =
      (((i.perform call).1.performAll later).1, (i.perform call).2 :: ((i.perform call).1.performAll later).2) := rfl

theorem performAll_append (i : Instance) (first later : List BuilderCall) :
    i.performAll (first ++ later) =
      (((i.performAll first).1.performAll later).1,
        (i.performAll first).2 ++ ((i.performAll first).1.performAll later).2) := by
  induction first generalizing i with
  | nil => rfl
  | cons call rest ih => simp only [List.cons_append, performAll_cons, ih]

/-- Binding contexts does nothing else. -/
theorem performAll_setContext {calls : List BuilderCall} (only : .configure ∉ calls) :
    i.performAll calls = ({ i with reach := BuilderCall.reachAfter i.reach calls }, calls.map fun _ => .ok ()) := by
  induction calls generalizing i with
  | nil => rfl
  | cons call later ih =>
    obtain ⟨differs, rest⟩ := not_or.mp fun member => only (List.mem_cons.mpr member)
    cases call with
    | configure => exact absurd rfl differs
    | setContext properties =>
      rw [performAll_cons, BuilderCall.reachAfter_cons, ih rest]
      rfl

/-- A configured instance answers calls of `configure` with a fault, and only its context ever changes. -/
theorem performAll_again (configured : i.isConfigured = true) (calls : List BuilderCall) :
    i.performAll calls =
      ({ i with reach := BuilderCall.reachAfter i.reach calls }, calls.map BuilderCall.answerAgain) := by
  induction calls generalizing i with
  | nil => rfl
  | cons call later ih =>
    rw [performAll_cons, BuilderCall.reachAfter_cons]
    cases call with
    | setContext properties =>
      rw [ih (by exact configured)]
      rfl
    | configure =>
      have again : i.perform .configure = (i, .error .alreadyConfigured) := by
        rw [perform, configure, if_pos configured]
      rw [again, ih configured]
      rfl

/-- A new instance that is configured counts as configured, and has defined what came of it. -/
theorem configure_eq (new : i.isConfigured = false) :
    i.configure = ({ i with isConfigured := true, definitions := i.outcome.2 }, i.outcome.1) := by
  unfold outcome configure
  simp only [new, Bool.false_eq_true, if_false]
  cases i.program.methods.get? "configure" <;> rfl

/-! ### Once -/

/-- What running a body from given definitions comes to, and how much of it stays when it fails. -/
structure RunAccounts (p : Program) (reach : Reach) (body : List Instruction) (start : Definitions)
    (outcome : Outcome) : Prop where
  /-- The outcome is that of running the body. -/
  ran : outcome = (p.run reach body).run.run start
  /-- Instructions are performed, and what they define is accumulated, until the run stops; their REST configurations
  are accounted for key by key. Without a fault that is all. With a fault it stops at an instruction, which leaves
  behind no route and no service, and of a REST configuration the settings before the operand that failed. -/
  kept : ∃ performed t, p.Executes reach ⟨[body], start⟩ performed t ∧ p.Stops reach t outcome ∧
    Accumulates reach performed start t.definitions ∧
    (start.configurations = none → ConfiguredPerKey reach performed t.definitions.configurations) ∧
    match outcome.1 with
    | .ok () => outcome.2 = t.definitions
    | .error fault =>
      ∃ failing later outer, t.bodies = (failing :: later) :: outer ∧
        failing.LeavesBehind reach t.definitions fault outcome.2

theorem runAccounts (p : Program) (reach : Reach) (body : List Instruction) (start : Definitions) :
    RunAccounts p reach body start ((p.run reach body).run.run start) := by
  obtain ⟨performed, t, executes, stops⟩ := p.executes_run reach body start
  refine ⟨rfl, performed, t, executes, stops, Accumulates.executes executes, configuredPerKey_of_executes executes, ?_⟩
  generalize (p.run reach body).run.run start = outcome at stops
  rcases outcome with ⟨fault | _, d⟩
  · exact stops.leavesBehind
  · exact congrArg RunState.definitions (stops.eq_of_ok rfl).symm

/-- Sequences of calls of an instance of a program. -/
structure ConfiguredOnce (p : Program) (i : Instance) : Prop where
  /-- As long as `configure` is not called, contexts are bound and nothing else happens. -/
  notYet : i.isConfigured = false ∧ i.reach = none ∧ ∀ calls, .configure ∉ calls →
    i.performAll calls = ({ i with reach := BuilderCall.reachAfter none calls }, calls.map fun _ => .ok ())
  /-- The first call of `configure` is answered with the outcome of the run against the context bound last before it,
  every later one with the same fault. From the first call on the instance counts as configured, and what it has
  defined is what came of that run. -/
  first : ∀ before after, .configure ∉ before →
    let outcome := { i with reach := BuilderCall.reachAfter none before }.outcome
    i.performAll (before ++ .configure :: after) =
      ({ i with
          reach := BuilderCall.reachAfter none (before ++ after)
          isConfigured := true
          definitions := outcome.2 },
        before.map (fun _ => .ok ()) ++ outcome.1 :: after.map BuilderCall.answerAgain)
  /-- A call of `configure` behind the first one leaves the instance as it is. -/
  again : ∀ before after, let j := (i.performAll (before ++ .configure :: after)).1
    j.configure = (j, .error .alreadyConfigured)
  /-- The run is that of the body of `configure`; without one, the outcome is a fault and nothing is defined. -/
  runs : ∀ reach, match p.methods.get? "configure" with
    | none => { i with reach }.outcome = (.error (.misused (.missingConfigure p.name)), i.definitions)
    | some body => RunAccounts p reach body i.definitions { i with reach }.outcome
  /-- An instance of a class that was compiled has defined nothing before. -/
  compiled : ∀ qualifiedName source, compile qualifiedName source = .ok p → i.definitions = {}

theorem create_eq_ok {p : Program} (created : create p = .ok i) :
    ∃ definitions, i = { program := p, definitions } := by
  unfold create at created
  split at created
  · cases created
  · split at created
    · cases created
    · split at created
      · exact ⟨_, (Except.ok.inj created).symm⟩
      · cases created

theorem performAll_configure (new : i.isConfigured = false) {before : List BuilderCall} (only : .configure ∉ before)
    (after : List BuilderCall) :
    i.performAll (before ++ .configure :: after) =
      ({ i with
          reach := BuilderCall.reachAfter i.reach (before ++ after)
          isConfigured := true
          definitions := { i with reach := BuilderCall.reachAfter i.reach before }.outcome.2 },
        before.map (fun _ => .ok ()) ++ { i with reach := BuilderCall.reachAfter i.reach before }.outcome.1 ::
          after.map BuilderCall.answerAgain) := by
  have bound : BuilderCall.reachAfter (BuilderCall.reachAfter i.reach before) after =
      BuilderCall.reachAfter i.reach (before ++ after) := by
    simp only [BuilderCall.reachAfter, List.filterMap_append, List.getLast?_append, Option.or_assoc]
  have configured : { i with reach := BuilderCall.reachAfter i.reach before }.perform .configure = _ :=
    configure_eq (i := { i with reach := BuilderCall.reachAfter i.reach before }) new
  rw [performAll_append, performAll_setContext only, performAll_cons, configured]
  dsimp only
  rw [performAll_again rfl, bound]

/-- An instance is configured at most once, whatever calls it gets: at the first call of `configure`, against the context
bound last before it. -/
theorem configured_once {p : Program} (created : create p = .ok i) : ConfiguredOnce p i := by
  obtain ⟨definitions, rfl⟩ := create_eq_ok created
  constructor
  case notYet => exact ⟨rfl, rfl, fun calls only => performAll_setContext only⟩
  case first => exact fun before after only => performAll_configure rfl only after
  case again =>
    intro before after j
    have configured : j.isConfigured = true := by
      -- The first call of `configure` is in front of the marked one, or is that one.
      obtain ⟨first, rest, split, only⟩ := List.eq_append_cons_of_mem
        (List.mem_append_right before (List.mem_cons_self : BuilderCall.configure ∈ .configure :: after))
      change (performAll _ _).1.isConfigured = true
      rw [split, performAll_configure rfl only]
    rw [configure, if_pos configured]
  case runs =>
    intro reach
    rw [outcome_eq (i := { program := p, reach, definitions }) rfl]
    cases p.methods.get? "configure" with
    | none => rfl
    | some body => exact runAccounts p reach body definitions
  case compiled =>
    intro qualifiedName source compiled
    obtain ⟨_, _, _, _, lowered⟩ := exists_of_compile_eq_ok compiled
    obtain ⟨_, _, accepted⟩ := ClassDeclaration.accepted_of_lower lowered
    obtain ⟨_, same⟩ := eq_of_create_eq_ok accepted created
    exact congrArg Instance.definitions same

/-- A route builder that fails in its second method, in the middle of a REST configuration. -/
def failingSource : String :=
  "class Failing extends RouteBuilder \x7b void configure() \x7b from(\"a\").log(\"b\"); more(); from(\"c\"); \x7d " ++
  "void more() \x7b restConfiguration(\"r\").host(\"x\").endpointProperty(\"k\", \"v\").port(getContext()" ++
  ".resolvePropertyPlaceholders(\"\x7b\x7bp\x7d\x7d\")); \x7d \x7d"

/-- Calls that bind contexts with and without the property that the route builder asks for. -/
def failingCalls : List BuilderCall :=
  [.setContext (.ofList [("p", "1")]), .setContext .empty, .configure, .setContext (.ofList [("p", "1")]), .configure]

/-- The run against the second context fails; the route in front of the call, the host and the property stay, and
configuring once more against the third context changes nothing. -/
theorem configured_once_failing :
    ∃ p i, compile "Failing" failingSource = .ok p ∧ create p = .ok i ∧ ConfiguredOnce p i ∧
      (i.performAll failingCalls).2 = [.ok (), .ok (),
        .error (.raised placeholderException "property placeholder '\x7b\x7bp\x7d\x7d' could not be resolved"),
        .ok (), .error .alreadyConfigured] ∧
      (i.performAll failingCalls).1.definitions.routes.map (·.origin) = ["a"] ∧
      ((i.performAll failingCalls).1.definitions.configurations.getD .empty).entries.map
        (fun entry => (entry.1, entry.2.host, entry.2.endpointProperties.get? "k", entry.2.port)) =
          [("r", some "x", some "v", none)] := by
  have ran : ((compile "Failing" failingSource).toOption.any fun p => (create p).toOption.any fun i =>
      decide ((i.performAll failingCalls).2 = [.ok (), .ok (),
        .error (.raised placeholderException "property placeholder '\x7b\x7bp\x7d\x7d' could not be resolved"),
        .ok (), .error .alreadyConfigured]) &&
      (decide ((i.performAll failingCalls).1.definitions.routes.map (·.origin) = ["a"]) &&
      decide (((i.performAll failingCalls).1.definitions.configurations.getD .empty).entries.map
        (fun entry => (entry.1, entry.2.host, entry.2.endpointProperties.get? "k", entry.2.port)) =
          [("r", some "x", some "v", none)]))) = true := by
    have lexed : Lexed.ofSource failingSource = _ := Lexed.ofSource_eq
      (Lexed.toList_append_eq (Lexed.toList_append_eq String.toList_ofList String.toList_ofList) String.toList_ofList)
    rw [compile, lexed]
    decide +kernel
  obtain ⟨p, compiled, ran⟩ := (Option.any_eq_true ..).mp ran
  obtain ⟨i, created, ran⟩ := (Option.any_eq_true ..).mp ran
  simp only [Bool.and_eq_true, decide_eq_true_eq] at ran
  have created := Except.eq_ok_of_toOption created
  exact ⟨p, i, Except.eq_ok_of_toOption compiled, created, configured_once created, ran⟩

end Instance

end RouteDepot.RouteClass
