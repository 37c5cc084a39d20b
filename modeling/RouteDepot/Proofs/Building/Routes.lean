import RouteDepot.Proofs.Building.Faults
import RouteDepot.Proofs.Configuration.Edits
import RouteDepot.Proofs.Trimming

/-! # Building routes

A call on a route comes to an edit: a text for one of its attributes, whether it starts by itself, or further steps.
What it comes to does not depend on the route that it is made to. The route has the last value that each attribute was
given, wherever that was, and the steps of all edits one after another.
-/

namespace RouteDepot.RouteClass

open Operand (Reach evalOptional evalTexts)

/-! ### Truth values -/

/-- A text names a truth value: blanks around it and the case of its ASCII letters aside, it is `true` or `false`. -/
def NamesFlag (text : String) (flag : Bool) : Prop :=
  ∃ core, Text.TrimsTo text.toList core ∧ core.map Char.toLower = (Value.bool flag).display.toList

theorem namesFlag_iff {text : String} {flag : Bool} :
    NamesFlag text flag ↔
      String.ofList ((Text.trimList text.toList).map Char.toLower) = (Value.bool flag).display := by
  constructor
  · rintro ⟨core, trims, lowered⟩
    rw [Text.trimsTo_iff.mp trims, lowered, String.ofList_toList]
  · intro lowered
    refine ⟨Text.trimList text.toList, Text.trimsTo_trimList _, ?_⟩
    rw [← lowered, String.toList_ofList]

/-- A truth value is shown as a text that names it. -/
theorem namesFlag_display (flag other : Bool) : NamesFlag (Value.bool flag).display other ↔ flag = other := by
  rw [namesFlag_iff]
  cases flag <;> cases other <;> decide +kernel

theorem NamesFlag.unique {text : String} {flag other : Bool} (names : NamesFlag text flag)
    (names' : NamesFlag text other) : flag = other := by
  have same := (namesFlag_iff.mp names).symm.trans (namesFlag_iff.mp names')
  exact (namesFlag_display flag other).mp (same ▸ (namesFlag_display other other).mpr rfl)

theorem autoStartupFlag_eq_ok_iff {value : Value} {flag : Bool} :
    autoStartupFlag value = .ok flag ↔ NamesFlag value.display flag := by
  cases value with
  | bool given => simp [autoStartupFlag, namesFlag_display]
  | str _ | int _ | null =>
    rw [namesFlag_iff]
    simp only [autoStartupFlag]
    split <;> rename_i same <;> cases flag <;> simp_all [Value.display]

theorem autoStartupFlag_eq_error_iff {value : Value} {fault : ConfigureError} :
    autoStartupFlag value = .error fault ↔
      (∀ flag, ¬ NamesFlag value.display flag) ∧ fault = .misused (.badAutoStartup value.display) := by
  have worded {other : ConfigureError} (failed : autoStartupFlag value = .error other) :
      other = .misused (.badAutoStartup value.display) := by
    unfold autoStartupFlag at failed
    split at failed
    · cases failed
    · split at failed <;> cases failed
      rfl
  constructor
  · intro failed
    refine ⟨fun flag names => ?_, worded failed⟩
    rw [autoStartupFlag_eq_ok_iff.mpr names] at failed
    cases failed
  · rintro ⟨none, rfl⟩
    cases result : autoStartupFlag value with
    | ok flag => exact absurd (autoStartupFlag_eq_ok_iff.mp result) (none flag)
    | error other => rw [worded result]

/-! ### Edits -/

/-- What a call does to a route. -/
inductive RouteEdit where
  | id (text : String)
  | description (text : String)
  | autoStartup (flag : Bool)
  | steps (added : List Step)
  deriving DecidableEq, Repr

namespace RouteEdit

/-- The id that an edit gives. -/
def id? : RouteEdit → Option String
  | id text => some text
  | _ => none

/-- The description that an edit gives. -/
def description? : RouteEdit → Option String
  | description text => some text
  | _ => none

/-- Whether the route starts by itself, if an edit says so. -/
def autoStartup? : RouteEdit → Option Bool
  | autoStartup flag => some flag
  | _ => none

/-- The steps that an edit adds; an edit of an attribute adds none. -/
def added : RouteEdit → List Step
  | steps added => added
  | _ => []

/-- The route after an edit. -/
def apply (route : Route) : RouteEdit → Route
  | id text => { route with id := some text }
  | description text => { route with description := some text }
  | autoStartup flag => { route with autoStartup := flag }
  | steps added => { route with steps := route.steps ++ added }

/-- The last value that edits give, if one of them gives any. -/
def last {α : Type} (given? : RouteEdit → Option α) (edits : List RouteEdit) : Option α :=
  (edits.filterMap given?).getLast?

theorem apply_eq (route : Route) (edit : RouteEdit) :
    edit.apply route = {
      id := edit.id?.or route.id
      description := edit.description?.or route.description
      origin := route.origin
      autoStartup := (edit.autoStartup?.or (some route.autoStartup)).getD true
      steps := route.steps ++ edit.added } := by
  cases edit <;> simp [apply, id?, description?, autoStartup?, added]

/-- After edits a route has the last values that it was given and all the steps that were added. -/
theorem foldl_apply (edits : List RouteEdit) (route : Route) :
    edits.foldl apply route = {
      id := (last id? edits).or route.id
      description := (last description? edits).or route.description
      origin := route.origin
      autoStartup := ((last autoStartup? edits).or (some route.autoStartup)).getD true
      steps := route.steps ++ edits.flatMap added } := by
  induction edits generalizing route with
  | nil => simp [last]
  | cons edit later ih =>
    have flag : some ((edit.autoStartup?.or (some route.autoStartup)).getD true) =
        edit.autoStartup?.or (some route.autoStartup) := by
      cases edit.autoStartup? <;> rfl
    simp only [last] at ih ⊢
    rw [List.foldl_cons, ih, apply_eq]
    simp only [flag, Edit.last_or, List.flatMap_cons, List.append_assoc]

end RouteEdit

/-! ### Calls -/

namespace RouteCall

/-- The edit that a call comes to, given what its operands are shown as: `send` adds one step for each of its operands,
in their order. -/
inductive ComesTo (reach : Reach) : RouteCall → RouteEdit → Prop
  | routeId {id text} (shown : id.Shows reach text) : ComesTo reach (.routeId id) (.id text)
  | description {operand text} (shown : operand.Shows reach text) :
      ComesTo reach (.description operand) (.description text)
  | autoStartup {operand text flag} (shown : operand.Shows reach text) (names : NamesFlag text flag) :
      ComesTo reach (.autoStartup operand) (.autoStartup flag)
  | send {uris texts} (shown : List.Forall₂ (Operand.Shows reach) uris texts) :
      ComesTo reach (.send uris) (.steps (texts.map .send))
  | sendDynamic {uri text} (shown : uri.Shows reach text) :
      ComesTo reach (.sendDynamic uri) (.steps [.sendDynamic text])
  | log {message text} (shown : message.Shows reach text) : ComesTo reach (.log message) (.steps [.log text])
  | setBody {language operand text} (shown : operand.Shows reach text) :
      ComesTo reach (.setBody ⟨language, operand⟩) (.steps [.setBody ⟨language, text⟩])
  | setHeader {header name language operand text} (shownHeader : header.Shows reach name)
      (shown : operand.Shows reach text) :
      ComesTo reach (.setHeader header ⟨language, operand⟩) (.steps [.setHeader name ⟨language, text⟩])
  | removeHeader {header name} (shown : header.Shows reach name) :
      ComesTo reach (.removeHeader header) (.steps [.removeHeader name])
  | transform {language operand text} (shown : operand.Shows reach text) :
      ComesTo reach (.transform ⟨language, operand⟩) (.steps [.transform ⟨language, text⟩])
  | filter {language operand text} (shown : operand.Shows reach text) :
      ComesTo reach (.filter ⟨language, operand⟩) (.steps [.filter ⟨language, text⟩])

/-- How a call on a route fails: by its first operand without a value, or with a text that names no truth value. -/
inductive Fails (reach : Reach) : RouteCall → ConfigureError → Prop
  | unevaluated {call fault} : FirstUnevaluated reach call.operands fault → Fails reach call fault
  | noFlag {flag value} : flag.eval reach = .ok value → (∀ named, ¬ NamesFlag value.display named) →
      Fails reach (.autoStartup flag) (.misused (.badAutoStartup value.display))

variable {reach : Reach} {fault : ConfigureError} {call : RouteCall} {edit : RouteEdit}

/-- A call makes the edit that it comes to, whatever the route is. -/
theorem ComesTo.apply_eq (comes : call.ComesTo reach edit) (route : Route) :
    call.apply reach route = .ok (edit.apply route) := by
  cases comes with
  | autoStartup shown names =>
    obtain ⟨value, evaluated, rfl⟩ := shown
    simp [apply, evaluated, autoStartupFlag_eq_ok_iff.mpr names, RouteEdit.apply]
  | send shown => simp [apply, Operand.evalTexts_eq_ok_iff.mpr shown, RouteEdit.apply]
  | setHeader shownHeader shown =>
    simp [apply, Operand.evalText_eq_ok_iff.mpr shownHeader, ClauseOperand.eval, Operand.evalText_eq_ok_iff.mpr shown,
      RouteEdit.apply, apply.withStep]
  | routeId shown | description shown | sendDynamic shown | log shown | removeHeader shown =>
    simp [apply, Operand.evalText_eq_ok_iff.mpr shown, RouteEdit.apply, apply.withStep]
  | setBody shown | transform shown | filter shown =>
    simp [apply, ClauseOperand.eval, Operand.evalText_eq_ok_iff.mpr shown, RouteEdit.apply, apply.withStep]

/-- A call comes to one edit at most. -/
theorem comesTo_rightUnique : Relator.RightUnique (ComesTo reach) := by
  intro call edit edit' comes comes'
  cases comes with
  | autoStartup shown names =>
    cases comes' with
    | autoStartup shown' names' =>
      obtain rfl := shown.unique shown'
      rw [names.unique names']
  | send shown =>
    cases comes' with
    | send shown' => rw [Operand.shows_rightUnique.forall₂ shown shown']
  | setHeader shownHeader shown =>
    cases comes' with
    | setHeader shownHeader' shown' => rw [shownHeader.unique shownHeader', shown.unique shown']
  | routeId shown | description shown | sendDynamic shown | log shown | removeHeader shown | setBody shown
  | transform shown | filter shown =>
    cases comes' with
    | _ shown' => rw [shown.unique shown']

/-- A call fails on a route exactly when it fails by itself. -/
theorem apply_eq_error_iff (route : Route) : call.apply reach route = .error fault ↔ call.Fails reach fault := by
  have unevaluated (same : call.apply reach route = .error fault ↔ FirstUnevaluated reach call.operands fault)
      (other : ∀ flag, call ≠ .autoStartup flag) : call.apply reach route = .error fault ↔ call.Fails reach fault := by
    refine same.trans ⟨.unevaluated, ?_⟩
    rintro (first | _)
    · exact first
    · exact absurd rfl (other _)
  cases call with
  | routeId text | description text | sendDynamic text | log text | removeHeader text =>
    refine unevaluated ?_ nofun
    simp [apply, operands, arguments, firstFailure_singleton, Operand.evalText_eq_error_iff,
      Except.bind_value_eq_error_iff]
  | send uris =>
    refine unevaluated ?_ nofun
    simp [apply, operands, arguments, Function.comp_def, Operand.evalTexts_eq_error_iff,
      Except.bind_value_eq_error_iff]
  | setBody clause | transform clause | filter clause =>
    refine unevaluated ?_ nofun
    simp [apply, operands, arguments, ClauseOperand.argument, firstFailure_singleton, ClauseOperand.eval_eq_error_iff,
      Except.bind_value_eq_error_iff]
  | setHeader name clause =>
    refine unevaluated ?_ nofun
    simp only [apply, operands, arguments, ClauseOperand.argument, List.map_cons, List.map_nil, FirstUnevaluated,
      firstFailure_cons, not_firstFailure_nil, ← @Operand.evalText_eq_error_iff reach _ name,
      ← ClauseOperand.eval_eq_error_iff]
    cases name.evalText reach <;> simp [Except.bind_value_eq_error_iff]
  | autoStartup flag =>
    rw [apply, Except.bind_eq_error_iff]
    constructor
    · rintro (failed | ⟨value, evaluated, failed⟩)
      · exact .unevaluated (firstFailure_singleton.mpr failed)
      · obtain ⟨none, rfl⟩ := autoStartupFlag_eq_error_iff.mp (Except.eq_error_of_bind_pure failed)
        exact .noFlag evaluated none
    · rintro (first | ⟨evaluated, none⟩)
      · exact .inl (firstFailure_singleton.mp first)
      · refine .inr ⟨_, evaluated, ?_⟩
        rw [autoStartupFlag_eq_error_iff.mpr ⟨none, rfl⟩]
        rfl

/-- A call that succeeds comes to an edit. -/
theorem exists_comesTo_of_apply {route built : Route} (success : call.apply reach route = .ok built) :
    ∃ edit, call.ComesTo reach edit := by
  cases call with
  | routeId text | description text | sendDynamic text | log text | removeHeader text =>
    obtain ⟨_, shown, _⟩ := Except.bind_eq_ok_iff.mp success
    apply Exists.intro
    constructor
    exact Operand.evalText_eq_ok_iff.mp shown
  | autoStartup operand =>
    obtain ⟨value, evaluated, success⟩ := Except.bind_eq_ok_iff.mp success
    obtain ⟨flag, named, _⟩ := Except.bind_eq_ok_iff.mp success
    exact ⟨_, .autoStartup ⟨value, evaluated, rfl⟩ (autoStartupFlag_eq_ok_iff.mp named)⟩
  | send uris =>
    obtain ⟨_, shown, _⟩ := Except.bind_eq_ok_iff.mp success
    exact ⟨_, .send (Operand.evalTexts_eq_ok_iff.mp shown)⟩
  | setBody clause | transform clause | filter clause =>
    obtain ⟨_, shown, _⟩ := Except.bind_eq_ok_iff.mp success
    apply Exists.intro
    constructor
    exact ClauseOperand.shows_of_eval shown
  | setHeader header clause =>
    obtain ⟨_, shownHeader, success⟩ := Except.bind_eq_ok_iff.mp success
    obtain ⟨_, shown, _⟩ := Except.bind_eq_ok_iff.mp success
    exact ⟨_, .setHeader (Operand.evalText_eq_ok_iff.mp shownHeader) (ClauseOperand.shows_of_eval shown)⟩

/-- A call whose operands have values, and whose flag is named, comes to an edit. -/
theorem exists_comesTo (evaluate : ∀ operand ∈ call.operands, operand.Evaluates reach)
    (named : ∀ flag value, call = .autoStartup flag → flag.eval reach = .ok value →
      ∃ flag, NamesFlag value.display flag) : ∃ edit, call.ComesTo reach edit := by
  cases applied : call.apply reach { origin := "" } with
  | ok built => exact exists_comesTo_of_apply applied
  | error fault =>
    cases (apply_eq_error_iff _).mp applied with
    | unevaluated first => exact absurd first (Operand.not_firstUnevaluated evaluate)
    | noFlag evaluated none =>
      obtain ⟨flag, names⟩ := named _ _ rfl evaluated
      exact absurd names (none flag)

/-- A call on one of the attributes of a route. -/
def isAttribute : RouteCall → Bool
  | routeId _ | description _ | autoStartup _ => true
  | _ => false

/-- A call on an attribute adds no step. -/
theorem ComesTo.added_eq_nil (comes : call.ComesTo reach edit) (onAttribute : call.isAttribute) : edit.added = [] := by
  cases comes with
  | routeId | description | autoStartup => rfl
  | send | sendDynamic | log | setBody | setHeader | removeHeader | transform | filter => cases onAttribute

/-- The steps of several edits are those of the edits that are to no attribute. -/
theorem exists_flatMap_added {calls : List RouteCall} {edits : List RouteEdit}
    (comes : List.Forall₂ (ComesTo reach) calls edits) :
    ∃ others, List.Forall₂ (ComesTo reach) (calls.filter (! ·.isAttribute)) others ∧
      edits.flatMap RouteEdit.added = others.flatMap RouteEdit.added := by
  induction comes with
  | nil => exact ⟨[], .nil, rfl⟩
  | @cons call edit _ _ first _ ih =>
    obtain ⟨others, rest, same⟩ := ih
    cases kind : call.isAttribute with
    | true => exact ⟨others, by simpa [kind] using rest, by simp [first.added_eq_nil kind, same]⟩
    | false => exact ⟨edit :: others, by simpa [kind] using ⟨first, rest⟩, by simp [same]⟩

theorem foldlM_apply {calls : List RouteCall} {edits : List RouteEdit}
    (comes : List.Forall₂ (ComesTo reach) calls edits) (route : Route) :
    calls.foldlM (apply reach) route = .ok (edits.foldl RouteEdit.apply route) := by
  induction comes generalizing route with
  | nil => rfl
  | cons first _ ih =>
    rw [List.foldlM_cons, first.apply_eq]
    exact ih _

/-- Calls that succeed come to edits. -/
theorem exists_edits {calls : List RouteCall} {route built : Route}
    (success : calls.foldlM (apply reach) route = .ok built) : ∃ edits, List.Forall₂ (ComesTo reach) calls edits := by
  induction calls generalizing route with
  | nil => exact ⟨[], .nil⟩
  | cons call later ih =>
    rw [List.foldlM_cons] at success
    obtain ⟨_, first, rest⟩ := Except.bind_eq_ok_iff.mp success
    obtain ⟨edit, comes⟩ := exists_comesTo_of_apply first
    obtain ⟨edits, rest⟩ := ih rest
    exact ⟨edit :: edits, .cons comes rest⟩

end RouteCall

/-! ### Routes -/

/-- The route that an origin and edits describe: every attribute has the last value that it was given, and the steps are
those of the edits one after another. -/
def Route.ofEdits (origin : String) (edits : List RouteEdit) : Route where
  id := RouteEdit.last RouteEdit.id? edits
  description := RouteEdit.last RouteEdit.description? edits
  origin := origin
  autoStartup := (RouteEdit.last RouteEdit.autoStartup? edits).getD true
  steps := edits.flatMap RouteEdit.added

/-- How a route is built from an operand for its origin and a chain of calls. -/
structure RouteBuilding (reach : Reach) (origin : Operand) (calls : List RouteCall) : Prop where
  /-- When all operands have values and all flags are named, every call comes to an edit. -/
  comes : origin.Evaluates reach → (∀ call ∈ calls, ∀ operand ∈ call.operands, operand.Evaluates reach) →
    (∀ flag value, .autoStartup flag ∈ calls → flag.eval reach = .ok value →
      ∃ flag, NamesFlag value.display flag) →
    ∃ start edits, origin.Shows reach start ∧ List.Forall₂ (RouteCall.ComesTo reach) calls edits
  /-- The route is the one that the edits describe. -/
  builds : ∀ start edits, origin.Shows reach start → List.Forall₂ (RouteCall.ComesTo reach) calls edits →
    buildRoute reach origin calls = .ok (Route.ofEdits start edits)
  /-- The steps do not depend on where the calls on attributes stand, nor on how many there are. -/
  interleaves : ∀ others, calls.filter (! ·.isAttribute) = others.filter (! ·.isAttribute) →
    ∀ route other, buildRoute reach origin calls = .ok route → buildRoute reach origin others = .ok other →
      route.steps = other.steps
  /-- It fails with the fault of the origin, or else with that of the first call that fails. -/
  fails : ∀ fault, buildRoute reach origin calls = .error fault ↔
    origin.eval reach = .error fault ∨
      origin.Evaluates reach ∧ FirstFailure (fun _ => RouteCall.Fails reach) calls fault

section

variable {reach : Reach} {origin : Operand} {calls : List RouteCall}

theorem buildRoute_eq_ok_iff {route : Route} :
    buildRoute reach origin calls = .ok route ↔ ∃ start edits, origin.Shows reach start ∧
      List.Forall₂ (RouteCall.ComesTo reach) calls edits ∧ Route.ofEdits start edits = route := by
  have described (start : String) (edits : List RouteEdit) :
      edits.foldl RouteEdit.apply { origin := start } = Route.ofEdits start edits := by
    rw [RouteEdit.foldl_apply]
    simp only [Option.or_none, List.nil_append, Option.getD_or, Option.getD_some, Route.ofEdits]
  rw [buildRoute, Except.bind_eq_ok_iff]
  constructor
  · rintro ⟨start, evaluated, success⟩
    obtain ⟨edits, comes⟩ := RouteCall.exists_edits success
    rw [RouteCall.foldlM_apply comes, described] at success
    exact ⟨start, edits, Operand.evalText_eq_ok_iff.mp evaluated, comes, Except.ok.inj success⟩
  · rintro ⟨start, edits, shown, comes, rfl⟩
    exact ⟨start, Operand.evalText_eq_ok_iff.mpr shown, (RouteCall.foldlM_apply comes _).trans (by rw [described])⟩

/-- The steps are those of the calls that are on no attribute. -/
theorem exists_steps_of_buildRoute {route : Route} (built : buildRoute reach origin calls = .ok route) :
    ∃ others, List.Forall₂ (RouteCall.ComesTo reach) (calls.filter (! ·.isAttribute)) others ∧
      route.steps = others.flatMap RouteEdit.added := by
  obtain ⟨start, edits, _, comes, rfl⟩ := buildRoute_eq_ok_iff.mp built
  exact RouteCall.exists_flatMap_added comes

/-- Every chain of calls builds a route in this way. -/
theorem routeBuilding (reach : Reach) (origin : Operand) (calls : List RouteCall) :
    RouteBuilding reach origin calls where
  comes := by
    intro evaluates evaluate named
    have each : ∀ call ∈ calls, ∃ edit, call.ComesTo reach edit := fun call member =>
      RouteCall.exists_comesTo (evaluate call member) fun flag value same => named flag value (same ▸ member)
    obtain ⟨start, shown⟩ := evaluates.exists_shows
    obtain ⟨edits, comes⟩ := List.exists_forall₂ each
    exact ⟨start, edits, shown, comes⟩
  builds := fun start edits shown comes => buildRoute_eq_ok_iff.mpr ⟨start, edits, shown, comes, rfl⟩
  interleaves := by
    intro others same route other built builtOther
    obtain ⟨edits, comes, steps⟩ := exists_steps_of_buildRoute built
    obtain ⟨edits', comes', steps'⟩ := exists_steps_of_buildRoute builtOther
    rw [← same] at comes'
    rw [steps, steps', RouteCall.comesTo_rightUnique.forall₂ comes comes']
  fails := by
    intro fault
    have step (start : String) : calls.foldlM (RouteCall.apply reach) { origin := start } = .error fault ↔
        FirstFailure (fun _ => RouteCall.Fails reach) calls fault := by
      refine foldlM_eq_error_iff ?_
      intro before route _ call fault
      exact RouteCall.apply_eq_error_iff route
    rw [buildRoute, Operand.Evaluates, Operand.evalText]
    cases origin.eval reach with
    | error other => simp
    | ok value => simpa using step value.display

end

end RouteDepot.RouteClass
