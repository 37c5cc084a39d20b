import RouteDepot.Proofs.Configuration.Configured
import RouteDepot.Proofs.Direct.Compilation
import RouteDepot.Proofs.Locals.Unused

/-! # Local variables are evaluated where they are used

Compiling puts the initialiser of a local variable in the place of each use. So configuring an instance passes over
declarations, whatever they ask for: a text that does not resolve makes it fail where the variable is used, with what
was defined before, and a variable that is not used has no influence at all.
-/

namespace RouteDepot.RouteClass

open Direct

theorem Operand.resolveText_eq_error_iff {properties : Properties} {text : String} {error : ConfigureError} :
    resolveText (some properties) text = .error error ↔
      ∃ fault, properties.resolve text = .error fault ∧ error = .raised placeholderException fault.message := by
  unfold resolveText
  cases resolved : properties.resolve text <;> simp [resolved, eq_comm]

/-- The class that a source is compiled for, what its methods refer to when properties are bound, and where a run of
its `configure` method begins. -/
structure ConfiguresFrom (qualifiedName source : String) (properties : Properties) (c : ClassDeclaration)
    (env : Direct.Environment) (s : Point) : Prop where
  parsed : ∃ u, SourceUnit.ofTokens (Lexed.ofSource source).tokens (Lexed.ofSource source).stopSpan = .ok u ∧
    u.classes.find? (·.name.name == (SourceUnit.splitName qualifiedName).2) = some c
  reach : env.reach = some properties
  fields : fieldValues [] c.fields = .ok env.fields
  methods : env.methods = c.methods.map (·.name.name)
  start : ∃ body, c.plainBody? "configure" = some body ∧ s = ⟨callDepthLimit, [], body.body, {}⟩

/-- When the initialisers of local variables are evaluated in a run of `configure` that begins at a point and has an
outcome. -/
structure EvaluatesAtUse (c : ClassDeclaration) (env : Direct.Environment) (properties : Properties) (s : Point)
    (outcome : Outcome) : Prop where
  /-- From a declaration that the run comes to it goes on, with the same definitions, whatever the initialiser is. -/
  declared : ∀ room locals type name value later d,
    Reaches c env s ⟨room, locals, .declare type name value :: later, d⟩ →
    Reaches c env s ⟨room, (name.name, value) :: locals, later, d⟩
  /-- When the run comes to evaluating arguments one of which asks for a text that does not resolve, be it through
  local variables, it fails there by such a text, and what was defined before is all that is defined. -/
  used : ∀ room locals statement later d args d', Reaches c env s ⟨room, locals, statement :: later, d⟩ →
    Evaluates env locals d statement args d' →
    (∃ arg ∈ args, ∃ text fault, env.Asks locals arg text ∧ properties.resolve text = .error fault) →
    ∃ arg ∈ args, ∃ text fault, env.Asks locals arg text ∧ properties.resolve text = .error fault ∧
      outcome = (.error (.raised placeholderException fault.message), d')
  /-- Other initialisers of local variables that are not used lead to the same outcome. -/
  unused : ∀ c', c.DiffersInUnused c' → Direct.configure c' properties = (outcome.1.mapError .failed, outcome.2)

namespace Direct

variable {c : ClassDeclaration} {fields : List (String × Value)} {properties : Properties} {body : Block}

/-- A fault at a point that `configure` comes to is what configuring comes to. -/
theorem configure_eq_error (found : c.plainBody? "configure" = some body)
    (values : fieldValues [] c.fields = .ok fields) {t : Point} {halt : Halt} {d : Definitions}
    (reaches : Reaches c (ClassDeclaration.Accepted.environment c fields properties)
      ⟨callDepthLimit, [], body.body, {}⟩ t)
    (failed : t.run c (ClassDeclaration.Accepted.environment c fields properties) = (.error halt, d)) :
    Direct.configure c properties = (.error halt, d) := by
  unfold Direct.configure
  rw [values]
  change (call c (ClassDeclaration.Accepted.environment c fields properties) (callDepthLimit + 1)
    "configure").run.run {} = _
  rw [call_succ, found]
  exact run_bind_of_error (reaches.run_eq_error failed)

/-- A run of `configure` with an outcome evaluates initialisers where the variables are used. -/
theorem evaluatesAtUse (found : c.plainBody? "configure" = some body) (values : fieldValues [] c.fields = .ok fields)
    {outcome : Outcome}
    (configured : Direct.configure c properties = (outcome.1.mapError .failed, outcome.2)) :
    EvaluatesAtUse c (ClassDeclaration.Accepted.environment c fields properties) properties
      ⟨callDepthLimit, [], body.body, {}⟩ outcome where
  declared := fun room locals type name value later d reaches => reaches.trans (.next rfl (.refl _))
  used := by
    intro room locals statement later d args d' reaches evaluates ⟨arg, member, text, fault, asks, unresolved⟩
    have unresolved := Operand.resolveText_eq_error_iff.mpr ⟨fault, unresolved, rfl⟩
    obtain ⟨halt, failed, byAsking⟩ := evaluates.exists_run_eq_error member asks unresolved
      (call c (ClassDeclaration.Accepted.environment c fields properties) room)
    have whole := configure_eq_error found values reaches (run_bind_of_error failed)
    obtain ⟨result, definitions⟩ := outcome
    obtain ⟨same, rfl⟩ := Prod.mk.inj (configured.symm.trans whole)
    -- What compiles is never meaningless, so the fault is that of one of the arguments.
    cases result with
    | ok _ => cases same
    | error error =>
      obtain ⟨other, listed, text, asks, failing⟩ := byAsking error (Except.error.inj same).symm
      obtain ⟨fault, stuck, rfl⟩ := Operand.resolveText_eq_error_iff.mp failing
      exact ⟨other, listed, text, fault, asks, stuck, rfl⟩
  unused := fun c' differs => (configure_differsInUnused differs properties).trans configured

end Direct

namespace ClassDeclaration.Accepted

variable {c : ClassDeclaration} {fields : List (String × Value)} {bodies : List (Option (String × List Instruction))}
  {p : Program}

/-- A route builder that is not abstract has a method to configure it. -/
theorem configure_mem_methods (accepted : c.Accepted fields bodies p) (concrete : p.isAbstract = false)
    (builder : p.isRouteBuilder = true) : "configure" ∈ (c.scope fields).methods := by
  obtain ⟨instructions, stored⟩ := Option.isSome_iff_exists.mp (accepted.configure_isSome builder concrete)
  obtain ⟨m, member, plain, named, _⟩ := accepted.get?_methods_eq_some_iff.mp stored
  exact List.mem_map.mpr ⟨m, List.mem_filter.mpr ⟨member, by simp [plain]⟩, named⟩

/-- The methods without parameters of a class that is not abstract have bodies. -/
theorem exists_plainBody? (accepted : c.Accepted fields bodies p) (concrete : p.isAbstract = false) {name : String}
    (declared : name ∈ (c.scope fields).methods) : ∃ body, c.plainBody? name = some body := by
  obtain ⟨other, listed, rfl⟩ := List.mem_map.mp declared
  obtain ⟨member, plain⟩ := List.mem_filter.mp listed
  obtain ⟨m, found⟩ : ∃ m, c.methods.find? (fun m => m.name.name == other.name.name && m.parameters.isEmpty) =
      some m := by
    rw [← Option.isSome_iff_exists, List.find?_isSome]
    exact ⟨other, member, by simpa using plain⟩
  obtain ⟨_, plain⟩ : m.name.name = other.name.name ∧ m.parameters = [] := by simpa using List.find?_some found
  obtain ⟨_, _, body, hasBody, _⟩ :=
    accepted.get?_methods_isSome concrete (List.mem_of_find?_eq_some found) plain
  exact ⟨body, by rw [plainBody?, found, Option.bind_some, hasBody]⟩

/-- The fields of an accepted class have their values. -/
theorem fieldValues_eq (accepted : c.Accepted fields bodies p) : fieldValues [] c.fields = .ok fields :=
  fieldValues_of_lowerFields rfl accepted.fields_done

/-- Configuring a new instance has the outcome of running the class directly. -/
theorem configure_eq (accepted : c.Accepted fields bodies p) (concrete : p.isAbstract = false)
    (builder : p.isRouteBuilder = true) (properties : Properties) :
    Direct.configure c properties =
      ((Instance.bind { program := p } properties).outcome.1.mapError .failed,
        (Instance.bind { program := p } properties).outcome.2) := by
  obtain ⟨body, stored⟩ := Option.isSome_iff_exists.mp (accepted.configure_isSome builder concrete)
  have called := accepted.call_eq concrete properties (callDepthLimit + 1)
    (accepted.configure_mem_methods concrete builder)
  have outcome : (Instance.bind { program := p } properties).outcome =
      (p.call (some properties) (callDepthLimit + 1) "configure").run.run {} := by
    rw [Instance.outcome_eq rfl, Program.call]
    simp only [Instance.bind, stored, Program.run]
  unfold Direct.configure
  rw [accepted.fieldValues_eq, outcome]
  change (call c (environment c fields properties) (callDepthLimit + 1) "configure").run.run {} = _
  rw [called, Exec.run_ofRun]

end ClassDeclaration.Accepted

/-- Local variables of a route builder that compiles are evaluated where they are used, whatever the properties of the
context are. -/
theorem initialisers_evaluated_at_use {qualifiedName source : String} {p : Program} {i : Instance}
    (compiled : compile qualifiedName source = .ok p) (created : Instance.create p = .ok i)
    (builder : p.isRouteBuilder = true) (properties : Properties) :
    ∃ c env s, ConfiguresFrom qualifiedName source properties c env s ∧
      EvaluatesAtUse c env properties s (i.bind properties).outcome := by
  obtain ⟨u, c, parsed, listed, lowered⟩ := exists_of_compile_eq_ok compiled
  obtain ⟨fields, bodies, accepted⟩ := ClassDeclaration.accepted_of_lower lowered
  obtain ⟨concrete, rfl⟩ := Instance.eq_of_create_eq_ok accepted created
  obtain ⟨body, found⟩ := accepted.exists_plainBody? concrete (accepted.configure_mem_methods concrete builder)
  refine ⟨c, ClassDeclaration.Accepted.environment c fields properties, ⟨callDepthLimit, [], body.body, {}⟩, ?_,
    evaluatesAtUse found accepted.fieldValues_eq (accepted.configure_eq concrete builder properties)⟩
  exact ⟨⟨u, parsed, listed⟩, rfl, accepted.fieldValues_eq, rfl, body, found, rfl⟩

/-- A route builder that declares a local variable with a text that does not resolve, and uses it in its second
route. -/
def lateSource : String :=
  "class Late extends RouteBuilder \x7b void configure() \x7b " ++
  "String at = getContext().resolvePropertyPlaceholders(\"\x7b\x7bmissing\x7d\x7d\"); " ++
  "from(\"a\").log(\"b\"); from(at).log(\"c\"); from(\"d\").log(\"e\"); \x7d \x7d"

/-- The late route builder defines its first route, and fails at its second one. -/
theorem initialisers_evaluated_at_use_late :
    ∃ p i c env s, compile "Late" lateSource = .ok p ∧ Instance.create p = .ok i ∧ p.isRouteBuilder = true ∧
      ConfiguresFrom "Late" lateSource .empty c env s ∧ EvaluatesAtUse c env .empty s (i.bind .empty).outcome ∧
      (i.bind .empty).outcome.1 =
        .error (.raised placeholderException "property placeholder '\x7b\x7bmissing\x7d\x7d' could not be resolved") ∧
      (i.bind .empty).outcome.2.routes = [{ origin := "a", steps := [.log "b"] }] := by
  have ran : ((compile "Late" lateSource).toOption.bind fun p => (Instance.create p).toOption.map fun i =>
      (p.isRouteBuilder, (i.bind .empty).outcome.1, (i.bind .empty).outcome.2.routes)) =
        some (true, .error (.raised placeholderException
          "property placeholder '\x7b\x7bmissing\x7d\x7d' could not be resolved"),
          [{ origin := "a", steps := [.log "b"] }]) := by
    have lexed : Lexed.ofSource lateSource = _ := Lexed.ofSource_eq
      (Lexed.toList_append_eq (Lexed.toList_append_eq String.toList_ofList String.toList_ofList) String.toList_ofList)
    rw [compile, lexed]
    decide +kernel
  obtain ⟨p, compiled, ran⟩ := Option.bind_eq_some_iff.mp ran
  obtain ⟨i, created, ran⟩ := Option.map_eq_some_iff.mp ran
  simp only [Prod.mk.injEq] at ran
  obtain ⟨builder, failed, routes⟩ := ran
  have compiled := Except.eq_ok_of_toOption compiled
  have created := Except.eq_ok_of_toOption created
  obtain ⟨c, env, s, begins, evaluates⟩ := initialisers_evaluated_at_use compiled created builder .empty
  exact ⟨p, i, c, env, s, compiled, created, builder, begins, evaluates, failed, routes⟩

/-- A route builder that does not use a local variable whose text does not resolve. -/
def idleSource : String :=
  "class A extends RouteBuilder \x7b void configure() \x7b " ++
  "String unused = getContext().resolvePropertyPlaceholders(\"\x7b\x7bmissing\x7d\x7d\"); " ++
  "from(\"direct:a\").to(\"mock:a\"); \x7d \x7d"

/-- The text that the first statement declares a local variable with, when it asks for a text written out. -/
def declaredText? : List Statement → Option String
  | .declare _ _ (some (.callOn target callee [.literal (.str text) _] _)) :: _ =>
    if callee.name = "resolvePropertyPlaceholders" ∧ target.isGetContext then some text else none
  | _ => none

theorem exists_asks_of_declaredText? {body : List Statement} {text : String} (found : declaredText? body = some text)
    (env : Direct.Environment) (locals : Locals) :
    ∃ type name value later, body = .declare type name (some value) :: later ∧ env.Asks locals value text := by
  unfold declaredText? at found
  split at found
  · split at found
    · rename_i asked
      obtain rfl := Option.some.inj found
      exact ⟨_, _, _, _, rfl, .here asked.1 asked.2 rfl⟩
    · cases found
  · cases found

/-- Configuring need not fail at a declaration that asks for a text that does not resolve. -/
theorem declared_initialiser_not_evaluated :
    ¬ ∀ qualifiedName source p i properties c env s, compile qualifiedName source = .ok p →
      Instance.create p = .ok i → p.isRouteBuilder = true →
      ConfiguresFrom qualifiedName source properties c env s →
      ∀ room locals type name value later d text fault,
        Reaches c env s ⟨room, locals, .declare type name (some value) :: later, d⟩ →
        env.Asks locals value text → properties.resolve text = .error fault →
        ∃ message, (i.bind properties).outcome = (.error (.raised placeholderException message), d) := by
  intro failing
  have lexed : Lexed.ofSource idleSource = _ := Lexed.ofSource_eq
    (Lexed.toList_append_eq (Lexed.toList_append_eq String.toList_ofList String.toList_ofList) String.toList_ofList)
  have ran : ((compile "A" idleSource).toOption.bind fun p => (Instance.create p).toOption.map fun i =>
      (p.isRouteBuilder, (i.bind .empty).outcome.1)) = some (true, .ok ()) := by
    rw [compile, lexed]
    decide +kernel
  have parsed : ((SourceUnit.ofTokens (Lexed.ofSource idleSource).tokens
      (Lexed.ofSource idleSource).stopSpan).toOption.bind fun u =>
        (u.classes.find? (·.name.name == (SourceUnit.splitName "A").2)).bind fun c =>
          (fieldValues [] c.fields).toOption.bind fun _ =>
            (c.plainBody? "configure").bind fun body => declaredText? body.body) =
      some "\x7b\x7bmissing\x7d\x7d" := by
    rw [lexed]
    decide +kernel
  obtain ⟨p, compiled, ran⟩ := Option.bind_eq_some_iff.mp ran
  obtain ⟨i, created, ran⟩ := Option.map_eq_some_iff.mp ran
  obtain ⟨builder, success⟩ := Prod.mk.inj ran
  obtain ⟨u, parsed, found⟩ := Option.bind_eq_some_iff.mp parsed
  obtain ⟨c, listed, found⟩ := Option.bind_eq_some_iff.mp found
  obtain ⟨fields, values, found⟩ := Option.bind_eq_some_iff.mp found
  obtain ⟨body, hasBody, found⟩ := Option.bind_eq_some_iff.mp found
  obtain ⟨type, name, value, later, same, asks⟩ :=
    exists_asks_of_declaredText? found (ClassDeclaration.Accepted.environment c fields .empty) []
  have begins : ConfiguresFrom "A" idleSource .empty c (ClassDeclaration.Accepted.environment c fields .empty)
      ⟨callDepthLimit, [], body.body, {}⟩ :=
    ⟨⟨u, Except.eq_ok_of_toOption parsed, listed⟩, rfl, Except.eq_ok_of_toOption values, rfl, body, hasBody, rfl⟩
  have reaches : Reaches c (ClassDeclaration.Accepted.environment c fields .empty)
      ⟨callDepthLimit, [], body.body, {}⟩ ⟨callDepthLimit, [], .declare type name (some value) :: later, {}⟩ := by
    rw [same]
    exact .refl _
  have unresolved : (Properties.resolve .empty "\x7b\x7bmissing\x7d\x7d").isOk = false := by decide +kernel
  cases resolved : Properties.resolve .empty "\x7b\x7bmissing\x7d\x7d" with
  | ok text =>
    rw [resolved] at unresolved
    cases unresolved
  | error fault =>
    obtain ⟨message, failed⟩ := failing _ _ p i .empty c _ _ (Except.eq_ok_of_toOption compiled)
      (Except.eq_ok_of_toOption created) builder begins _ _ _ _ _ _ _ _ fault reaches asks resolved
    rw [failed] at success
    cases success

end RouteDepot.RouteClass
