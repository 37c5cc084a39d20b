import RouteDepot.Proofs.Building.Routes
import RouteDepot.Proofs.Safety.Failure

/-! # Building REST services

The verbs in a chain of calls split what is said about a service into segments: what stands before the first verb is
about the service itself, and what stands behind a verb, up to the next one, is about that verb. Every part of the
service and of a verb has the last text that it was given in its own segment.
-/

namespace RouteDepot.RouteClass

open Operand (Reach evalOptional)

/-! ### Settings -/

/-- The parts of a service or of a verb that are set by a text. -/
inductive RestPart where
  | description | consumes | produces | target
  deriving DecidableEq, Repr

/-- A text for a part of a service or of a verb. -/
structure RestSetting where
  part : RestPart
  text : String
  deriving DecidableEq, Repr

namespace RestSetting

/-- The text that a setting gives to a part. -/
def text? (part : RestPart) (s : RestSetting) : Option String := if s.part = part then some s.text else none

/-- The text that a part is given last. -/
def last (part : RestPart) (settings : List RestSetting) : Option String :=
  (settings.filterMap (text? part)).getLast?

/-- A verb with a part set. -/
def onVerb (v : Verb) (s : RestSetting) : Verb :=
  match s.part with
  | .description => { v with description := some s.text }
  | .consumes => { v with consumes := some s.text }
  | .produces => { v with produces := some s.text }
  | .target => { v with target := some s.text }

/-- A service with a part set; it has no target. -/
def onService (service : RestService) (s : RestSetting) : RestService :=
  match s.part with
  | .description => { service with description := some s.text }
  | .consumes => { service with consumes := some s.text }
  | .produces => { service with produces := some s.text }
  | .target => service

theorem onVerb_eq (v : Verb) (s : RestSetting) :
    s.onVerb v = { v with
      target := (s.text? .target).or v.target
      description := (s.text? .description).or v.description
      consumes := (s.text? .consumes).or v.consumes
      produces := (s.text? .produces).or v.produces } := by
  obtain ⟨part, text⟩ := s
  cases part <;> simp [onVerb, text?]

theorem onService_eq (service : RestService) (s : RestSetting) :
    s.onService service = { service with
      description := (s.text? .description).or service.description
      consumes := (s.text? .consumes).or service.consumes
      produces := (s.text? .produces).or service.produces } := by
  obtain ⟨part, text⟩ := s
  cases part <;> simp [onService, text?]

/-- After settings every part of a verb has the last text that it was given. -/
theorem foldl_onVerb (settings : List RestSetting) (v : Verb) :
    settings.foldl onVerb v = { v with
      target := (last .target settings).or v.target
      description := (last .description settings).or v.description
      consumes := (last .consumes settings).or v.consumes
      produces := (last .produces settings).or v.produces } := by
  induction settings generalizing v with
  | nil => simp [last]
  | cons s later ih =>
    simp only [last] at ih ⊢
    rw [List.foldl_cons, ih, onVerb_eq]
    simp only [Edit.last_or]

/-- After settings every part of a service has the last text that it was given. -/
theorem foldl_onService (settings : List RestSetting) (service : RestService) :
    settings.foldl onService service = { service with
      description := (last .description settings).or service.description
      consumes := (last .consumes settings).or service.consumes
      produces := (last .produces settings).or service.produces } := by
  induction settings generalizing service with
  | nil => simp [last]
  | cons s later ih =>
    simp only [last] at ih ⊢
    rw [List.foldl_cons, ih, onService_eq]
    simp only [Edit.last_or]

end RestSetting

/-! ### Edits and segments -/

/-- What a call does to a service. -/
inductive RestEdit where
  | verb (method : HttpMethod) (uri : Option String)
  | set (setting : RestSetting)
  deriving DecidableEq, Repr

/-- What is said about a verb: the verb itself, and the settings up to the next one. -/
structure RestSegment where
  method : HttpMethod
  uri : Option String
  settings : List RestSetting
  deriving DecidableEq, Repr

namespace RestSegment

/-- The edits that make up a segment. -/
def edits (segment : RestSegment) : List RestEdit :=
  .verb segment.method segment.uri :: segment.settings.map .set

/-- The verb that a segment describes. -/
def verb (segment : RestSegment) : Verb where
  method := segment.method
  uri := segment.uri
  target := RestSetting.last .target segment.settings
  description := RestSetting.last .description segment.settings
  consumes := RestSetting.last .consumes segment.settings
  produces := RestSetting.last .produces segment.settings

end RestSegment

/-- The service that the settings before the first verb and the segments after it describe. -/
def RestService.ofSegments (path : Option String) (settings : List RestSetting) (segments : List RestSegment) :
    RestService where
  path := path
  description := RestSetting.last .description settings
  consumes := RestSetting.last .consumes settings
  produces := RestSetting.last .produces settings
  verbs := segments.map RestSegment.verb

namespace RestEdit

/-- The service after an edit. -/
def apply (service : RestService) : RestEdit → Except ConfigureError RestService
  | verb method uri => .ok { service with verbs := service.verbs ++ [{ method, uri }] }
  | set setting =>
    if setting.part = .target ∧ service.verbs = [] then .error (.misused (.targetWithoutVerb setting.text))
    else .ok (changeLast service setting.onVerb setting.onService)

/-- Settings, and behind them the edits of segments. -/
def ofSegments (settings : List RestSetting) (segments : List RestSegment) : List RestEdit :=
  settings.map .set ++ segments.flatMap RestSegment.edits

/-- Edits are split at the verbs among them. -/
theorem exists_ofSegments (edits : List RestEdit) : ∃ settings segments, edits = ofSegments settings segments := by
  induction edits with
  | nil => exact ⟨[], [], rfl⟩
  | cons edit later ih =>
    obtain ⟨settings, segments, rfl⟩ := ih
    cases edit with
    | set setting => exact ⟨setting :: settings, segments, rfl⟩
    | verb method uri => exact ⟨[], ⟨method, uri, settings⟩ :: segments, by simp [ofSegments, RestSegment.edits]⟩

/-- Settings behind a verb change that verb. -/
theorem foldlM_apply_set (settings : List RestSetting) (service : RestService) (verbs : List Verb) (v : Verb) :
    (settings.map .set).foldlM apply { service with verbs := verbs ++ [v] } =
      .ok { service with verbs := verbs ++ [settings.foldl RestSetting.onVerb v] } := by
  induction settings generalizing v with
  | nil => rfl
  | cons setting later ih =>
    have applied : apply { service with verbs := verbs ++ [v] } (.set setting) =
        .ok { service with verbs := verbs ++ [setting.onVerb v] } := by
      simp [apply, changeLast]
    rw [List.map_cons, List.foldlM_cons, applied, List.foldl_cons]
    exact ih _

/-- A segment adds its verb and leaves everything before it as it is. -/
theorem foldlM_apply_segment (segment : RestSegment) (service : RestService) :
    segment.edits.foldlM apply service = .ok { service with verbs := service.verbs ++ [segment.verb] } := by
  rw [RestSegment.edits, List.foldlM_cons, apply, Except.bind_ok, foldlM_apply_set, RestSetting.foldl_onVerb]
  simp [RestSegment.verb]

theorem foldlM_apply_segments (segments : List RestSegment) (service : RestService) :
    (segments.flatMap RestSegment.edits).foldlM apply service =
      .ok { service with verbs := service.verbs ++ segments.map RestSegment.verb } := by
  induction segments generalizing service with
  | nil => simp
  | cons segment later ih =>
    rw [List.flatMap_cons, List.foldlM_append, foldlM_apply_segment, Except.bind_ok, ih]
    simp

/-- Settings before the first verb change the service, unless one of them is a target. -/
theorem foldlM_apply_onService {settings : List RestSetting} {service built : RestService} (none : service.verbs = []) :
    (settings.map .set).foldlM apply service = .ok built ↔
      (∀ setting ∈ settings, setting.part ≠ .target) ∧ settings.foldl RestSetting.onService service = built := by
  induction settings generalizing service with
  | nil => simp
  | cons setting later ih =>
    rw [List.map_cons, List.foldlM_cons]
    by_cases target : setting.part = .target
    · simp [apply, target, none]
    · have applied : apply service (.set setting) = .ok (setting.onService service) := by
        simp [apply, target, changeLast, none]
      have still : (setting.onService service).verbs = [] := by rw [RestSetting.onService_eq]; exact none
      rw [applied, Except.bind_ok, ih still]
      simp [target]

/-- Edits that are split at their verbs build the service that the segments describe, unless a target stands before
the first verb. -/
theorem foldlM_apply_eq_ok_iff {path : Option String} {settings : List RestSetting} {segments : List RestSegment}
    {built : RestService} :
    (ofSegments settings segments).foldlM apply { path := path } = .ok built ↔
      (∀ setting ∈ settings, setting.part ≠ .target) ∧ RestService.ofSegments path settings segments = built := by
  have head (next : RestService) := @foldlM_apply_onService settings { path := path } next rfl
  rw [ofSegments, List.foldlM_append, Except.bind_eq_ok_iff]
  simp only [head, foldlM_apply_segments, RestSetting.foldl_onService]
  constructor
  · rintro ⟨_, ⟨none, rfl⟩, same⟩
    refine ⟨none, ?_⟩
    rw [← Except.ok.inj same]
    simp [RestService.ofSegments]
  · rintro ⟨none, rfl⟩
    refine ⟨_, ⟨none, rfl⟩, ?_⟩
    simp [RestService.ofSegments]

end RestEdit

/-! ### Calls -/

namespace RestCall

/-- The edit that a call comes to, given what its operands are shown as. -/
inductive ComesTo (reach : Reach) : RestCall → RestEdit → Prop
  | verb {method uri text} (shown : Option.Rel (Operand.Shows reach) uri text) :
      ComesTo reach (.verb method uri) (.verb method text)
  | send {uri text} (shown : uri.Shows reach text) : ComesTo reach (.send uri) (.set ⟨.target, text⟩)
  | description {operand text} (shown : operand.Shows reach text) :
      ComesTo reach (.description operand) (.set ⟨.description, text⟩)
  | consumes {type text} (shown : type.Shows reach text) : ComesTo reach (.consumes type) (.set ⟨.consumes, text⟩)
  | produces {type text} (shown : type.Shows reach text) : ComesTo reach (.produces type) (.set ⟨.produces, text⟩)

/-- How a call fails that stands behind others: by its first operand without a value, or as a target when there is no
verb yet. -/
inductive FailsAfter (reach : Reach) (before : List RestCall) : RestCall → ConfigureError → Prop
  | unevaluated {call fault} : FirstUnevaluated reach call.operands fault → FailsAfter reach before call fault
  | withoutVerb {uri value} : uri.eval reach = .ok value → (∀ method path, .verb method path ∉ before) →
      FailsAfter reach before (.send uri) (.misused (.targetWithoutVerb value.display))

variable {reach : Reach} {fault : ConfigureError} {call : RestCall}

/-- A call makes the edit that it comes to. -/
theorem ComesTo.apply_eq {edit : RestEdit} (comes : call.ComesTo reach edit) (service : RestService) :
    call.apply reach service = edit.apply service := by
  cases comes with
  | verb shown => simp [apply, Operand.evalOptional_eq_ok_iff.mpr shown, RestEdit.apply]
  | description shown | consumes shown | produces shown =>
    simp only [apply, Operand.evalText_eq_ok_iff.mpr shown, Except.bind_ok]
    rfl
  | send shown =>
    simp only [apply, Operand.evalText_eq_ok_iff.mpr shown, Except.bind_ok]
    by_cases none : service.verbs = []
    · simp [RestEdit.apply, none]
      rfl
    · simp [RestEdit.apply, none]
      rfl

/-- A call whose operands have values comes to an edit. -/
theorem exists_comesTo (evaluate : ∀ operand ∈ call.operands, operand.Evaluates reach) :
    ∃ edit, call.ComesTo reach edit := by
  have shows {operand : Operand} (member : operand ∈ call.operands) : ∃ text, operand.Shows reach text :=
    (evaluate operand member).exists_shows
  cases call with
  | verb method uri =>
    cases uri with
    | none => exact ⟨_, .verb .none⟩
    | some uri =>
      obtain ⟨_, shown⟩ := shows List.mem_cons_self
      exact ⟨_, .verb (.some shown)⟩
  | send text | description text | consumes text | produces text =>
    obtain ⟨_, shown⟩ := shows List.mem_cons_self
    apply Exists.intro
    constructor
    exact shown

/-- Calls without a verb among them leave a service without verbs. -/
theorem verbs_eq_nil {calls : List RestCall} (noVerb : ∀ method path, .verb method path ∉ calls)
    {service built : RestService} (none : service.verbs = [])
    (success : calls.foldlM (apply reach) service = .ok built) : built.verbs = [] := by
  induction calls generalizing service with
  | nil =>
    obtain rfl := Except.ok.inj success
    exact none
  | cons call later ih =>
    obtain ⟨next, first, rest⟩ := Except.bind_eq_ok_iff.mp success
    refine ih (fun method path member => noVerb method path (List.mem_cons_of_mem _ member)) ?_ rest
    cases call with
    | verb method path => exact absurd List.mem_cons_self (noVerb method path)
    | description text | consumes text | produces text =>
      obtain ⟨_, _, same⟩ := Except.bind_eq_ok_iff.mp first
      obtain rfl := Except.ok.inj same
      simp [changeLast, none]
    | send uri =>
      obtain ⟨_, _, same⟩ := Except.bind_eq_ok_iff.mp first
      rw [none] at same
      cases same

/-- A call fails in the service that the calls before it have built exactly when it fails after these. -/
theorem apply_eq_error_iff {before : List RestCall} {path : Option String} {service : RestService}
    (built : before.foldlM (apply reach) { path := path } = .ok service) :
    call.apply reach service = .error fault ↔ call.FailsAfter reach before fault := by
  have unevaluated (same : call.apply reach service = .error fault ↔ FirstUnevaluated reach call.operands fault)
      (other : ∀ uri, call ≠ .send uri) :
      call.apply reach service = .error fault ↔ call.FailsAfter reach before fault := by
    refine same.trans ⟨.unevaluated, ?_⟩
    rintro (first | _)
    · exact first
    · exact absurd rfl (other _)
  cases call with
  | verb method uri =>
    refine unevaluated ?_ nofun
    simp [apply, operands, arguments, Function.comp_def, Operand.evalOptional_eq_error_iff,
      Except.bind_value_eq_error_iff]
  | description text | consumes text | produces text =>
    refine unevaluated ?_ nofun
    simp [apply, operands, arguments, firstFailure_singleton, Operand.evalText_eq_error_iff,
      Except.bind_value_eq_error_iff]
  | send uri =>
    cases evaluated : uri.eval reach with
    | error other =>
      have failed : uri.evalText reach = .error other := Operand.evalText_eq_error_iff.mpr evaluated
      rw [apply, failed, Except.bind_error]
      constructor
      · intro same
        obtain rfl := Except.error.inj same
        exact .unevaluated (firstFailure_singleton.mpr evaluated)
      · rintro (first | ⟨valued, _⟩)
        · rw [Except.error.inj (evaluated.symm.trans (firstFailure_singleton.mp first))]
        · cases evaluated.symm.trans valued
    | ok value =>
      rw [(ComesTo.send ⟨value, evaluated, rfl⟩).apply_eq, RestEdit.apply]
      constructor
      · intro failed
        split at failed
        · rename_i none
          obtain rfl := Except.error.inj failed
          exact .withoutVerb evaluated (verb_notMem built none.2)
        · cases failed
      · rintro (first | ⟨valued, noVerb⟩)
        · cases evaluated.symm.trans (firstFailure_singleton.mp first)
        · obtain rfl := Except.ok.inj (evaluated.symm.trans valued)
          exact if_pos ⟨rfl, verbs_eq_nil noVerb rfl built⟩

theorem foldlM_apply {calls : List RestCall} {edits : List RestEdit} (comes : List.Forall₂ (ComesTo reach) calls edits)
    (service : RestService) : calls.foldlM (apply reach) service = edits.foldlM RestEdit.apply service := by
  induction comes generalizing service with
  | nil => rfl
  | cons first _ ih =>
    rw [List.foldlM_cons, first.apply_eq, List.foldlM_cons]
    exact bind_congr ih

end RestCall

/-! ### Services -/

/-- How a service is built from an operand for its path, if there is one, and a chain of calls. -/
structure ServiceBuilding (reach : Reach) (path : Option Operand) (calls : List RestCall) : Prop where
  /-- When all operands have values, every call comes to an edit, and the verbs among the edits split them into
  segments. -/
  splits : (∀ operand ∈ path, operand.Evaluates reach) →
    (∀ call ∈ calls, ∀ operand ∈ call.operands, operand.Evaluates reach) →
    ∃ root settings segments, Option.Rel (Operand.Shows reach) path root ∧
      List.Forall₂ (RestCall.ComesTo reach) calls (RestEdit.ofSegments settings segments)
  /-- There is a service exactly when no target stands before the first verb, and then it is the one that the segments
  describe. -/
  builds : ∀ root settings segments, Option.Rel (Operand.Shows reach) path root →
    List.Forall₂ (RestCall.ComesTo reach) calls (RestEdit.ofSegments settings segments) →
    ∀ service, buildRest reach path calls = .ok service ↔
      (∀ setting ∈ settings, setting.part ≠ .target) ∧ RestService.ofSegments root settings segments = service
  /-- It fails with the fault of the path, or else with that of the first call that fails. -/
  fails : ∀ fault, buildRest reach path calls = .error fault ↔
    (∃ operand ∈ path, operand.eval reach = .error fault) ∨
      (∀ operand ∈ path, operand.Evaluates reach) ∧ FirstFailure (RestCall.FailsAfter reach) calls fault

/-- Every chain of calls builds a service in this way. -/
theorem serviceBuilding (reach : Reach) (path : Option Operand) (calls : List RestCall) :
    ServiceBuilding reach path calls where
  splits := by
    intro evaluates evaluate
    obtain ⟨root, shown⟩ : ∃ root, Option.Rel (Operand.Shows reach) path root := by
      cases path with
      | none => exact ⟨none, .none⟩
      | some operand =>
        obtain ⟨text, shown⟩ := (evaluates operand rfl).exists_shows
        exact ⟨some text, .some shown⟩
    obtain ⟨edits, comes⟩ := List.exists_forall₂ fun call member => RestCall.exists_comesTo (evaluate call member)
    obtain ⟨settings, segments, rfl⟩ := RestEdit.exists_ofSegments edits
    exact ⟨root, settings, segments, shown, comes⟩
  builds := by
    intro root settings segments shown comes service
    rw [buildRest, Operand.evalOptional_eq_ok_iff.mpr shown, Except.bind_ok, RestCall.foldlM_apply comes,
      RestEdit.foldlM_apply_eq_ok_iff]
  fails := by
    intro fault
    have step (root : Option String) : calls.foldlM (RestCall.apply reach) { path := root } = .error fault ↔
        FirstFailure (RestCall.FailsAfter reach) calls fault := by
      refine foldlM_eq_error_iff ?_
      intro before service built call fault
      exact RestCall.apply_eq_error_iff built
    rw [buildRest]
    cases path with
    | none => simpa [evalOptional] using step none
    | some operand =>
      simp only [evalOptional, Operand.evalText, Operand.Evaluates, Option.mem_def, Option.some.injEq, forall_eq',
        exists_eq_left']
      cases operand.eval reach with
      | error other => simp
      | ok value => simpa using step (some value.display)

/-- With every context, and without one, services are built segment by segment, and routes from the steps of their
calls and the last value of each attribute. -/
theorem definitions_built (reach : Reach) :
    (∀ path calls, ServiceBuilding reach path calls) ∧ ∀ origin calls, RouteBuilding reach origin calls :=
  ⟨serviceBuilding reach, routeBuilding reach⟩

/-- A service with a description in front of its first verb and one behind it. -/
def describedTwice : List RestCall :=
  [.description (.const (.str "all")), .verb .get none, .description (.const (.str "one")), .verb .put none]

/-- A route with two targets in one call, among calls on attributes. -/
def sentTwice : List RouteCall :=
  [.description (.const (.str "first")), .send [.const (.str "b"), .const (.str "c")],
    .autoStartup (.const (.str " FALSE ")), .setBody ⟨.constant, .const (.int 1)⟩, .description (.const (.str "last"))]

/-- The first description is about the service and the second one about its verb. Both targets are steps, and of the
descriptions of the route the last one counts. -/
theorem definitions_built_twice :
    buildRest none none describedTwice = .ok {
      description := some "all"
      verbs := [{ method := .get, description := some "one" }, { method := .put }] } ∧
    buildRoute none (.const (.str "a")) sentTwice = .ok {
      description := some "last"
      origin := "a"
      autoStartup := false
      steps := [.send "b", .send "c", .setBody ⟨.constant, "1"⟩] } := by
  obtain ⟨services, routes⟩ := definitions_built none
  constructor
  · have comes : List.Forall₂ (RestCall.ComesTo none) describedTwice
        (RestEdit.ofSegments [⟨.description, "all"⟩] [⟨.get, none, [⟨.description, "one"⟩]⟩, ⟨.put, none, []⟩]) :=
      .cons (.description (.const _)) (.cons (.verb .none) (.cons (.description (.const _)) (.cons (.verb .none) .nil)))
    exact ((services none describedTwice).builds none _ _ .none comes _).mpr ⟨by decide, rfl⟩
  · have named : NamesFlag " FALSE " false := namesFlag_iff.mpr (by decide +kernel)
    have comes : List.Forall₂ (RouteCall.ComesTo none) sentTwice
        [.description "first", .steps [.send "b", .send "c"], .autoStartup false, .steps [.setBody ⟨.constant, "1"⟩],
          .description "last"] :=
      .cons (.description (.const _)) (.cons (.send (.cons (.const _) (.cons (.const _) .nil)))
        (.cons (.autoStartup (.const _) named) (.cons (.setBody (.const _)) (.cons (.description (.const _)) .nil))))
    exact (routes (.const (.str "a")) sentTwice).builds "a" _ (.const _) comes

end RouteDepot.RouteClass
