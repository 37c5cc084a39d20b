import RouteDepot.Proofs.Placeholders.Meaning
import RouteDepot.Proofs.Placeholders.Stability
import RouteDepot.Proofs.Running.Alike
import RouteDepot.Proofs.Safety.Compilation

/-! # Resolving early

Route code may resolve the text of a REST configuration itself, while it is configured, and the text is resolved again
when the configuration is merged. Where no value of a property and no default in the text has an opening brace, the
second resolution changes nothing: a program that resolves early is loaded like one that does not, unless one of the
placeholders fails to resolve while it is configured.
-/

namespace RouteDepot.RouteClass

open Operand (Reach)

variable {properties : Properties}

/-! ### Programs -/

/-- The text of an operand, if it has one, is without defaults that have an opening brace. -/
def Operand.BracelessDefaults (properties : Properties) (operand : Operand) : Prop :=
  ∀ text, operand.evalText (some properties) = .ok text → Placeholder.BracelessDefaults text

/-- The second call sets the text that the first one sets, but resolves it first. -/
inductive ConfigurationCall.Resolves (text : Operand) : ConfigurationCall → ConfigurationCall → Prop
  | set (option : RestOption) : Resolves text (.set option text) (.set option (.placeholders text))
  | property (group : RestPropertyGroup) (key : Operand) :
      Resolves text (.property group key text) (.property group key (.placeholders text))

/-- The second call is the first one, or it resolves the text of the first one early, which has a property. -/
inductive ConfigurationCall.Early (property : Operand → Prop) : ConfigurationCall → ConfigurationCall → Prop
  | same (call : ConfigurationCall) : Early property call call
  | resolved {text : Operand} {call call' : ConfigurationCall} (resolves : call.Resolves text call')
      (holds : property text) : Early property call call'

/-- The second instruction is the first one, or it defines the same REST configuration with some texts resolved
early. -/
inductive Instruction.Early (property : Operand → Prop) : Instruction → Instruction → Prop
  | same (i : Instruction) : Early property i i
  | restConfiguration (component : Option Operand) {calls calls' : List ConfigurationCall}
      (related : List.Forall₂ (ConfigurationCall.Early property) calls calls') :
      Early property (.restConfiguration component calls) (.restConfiguration component calls')

/-- The second program is the first one with some texts of REST configurations resolved early, which all have a
property. -/
structure Program.Early (property : Operand → Prop) (p p' : Program) : Prop where
  name : p.name = p'.name
  qualifiedName : p.qualifiedName = p'.qualifiedName
  isAbstract : p.isAbstract = p'.isAbstract
  isRouteBuilder : p.isRouteBuilder = p'.isRouteBuilder
  constructor : p.constructor = p'.constructor
  methods : ∀ method, Option.Rel (List.Forall₂ (Instruction.Early property)) (p.methods.get? method)
    (p'.methods.get? method)

/-! ### Calls -/

theorem Operand.evalText_placeholders (reach : Reach) (operand : Operand) :
    (Operand.placeholders operand).evalText reach = operand.evalText reach >>= resolveText reach := by
  simp only [evalText, eval]
  cases operand.eval reach with
  | error fault => rfl
  | ok value =>
    change Value.display <$> (resolveText reach value.display >>= fun text => .ok (.str text)) =
      resolveText reach value.display
    cases resolveText reach value.display <;> rfl

/-- An operand that is resolved early fails because of a placeholder, or it has a text that the same becomes of as of
the operand's own. -/
theorem resolved_early (values : properties.Braceless) {operand : Operand}
    (defaults : operand.BracelessDefaults properties) :
    (∃ fault, (Operand.placeholders operand).evalText (some properties) = .error fault ∧
        Unresolved properties fault) ∨
      ∃ text resolved, operand.evalText (some properties) = .ok text ∧
        (Operand.placeholders operand).evalText (some properties) = .ok resolved ∧
        properties.resolve text = properties.resolve resolved := by
  rw [Operand.evalText_placeholders]
  cases evaluated : operand.evalText (some properties) with
  | error fault => exact .inl ⟨fault, rfl, operand.unresolved_of_eval (Except.map_eq_error_iff.mp evaluated)⟩
  | ok text =>
    rw [Except.bind_ok]
    cases success : properties.resolve text with
    | error fault =>
      refine .inl ⟨.raised placeholderException fault.message, ?_, text, fault, success, rfl⟩
      simp only [Operand.resolveText, success]
    | ok resolved =>
      refine .inr ⟨text, resolved, rfl, ?_, ?_⟩
      · simp only [Operand.resolveText, success]
      · exact success.trans (Placeholder.plain_of_resolve values (defaults text evaluated) success).2.symm

/-- A call comes to an edit, unless one of the placeholders in its arguments does not resolve. -/
theorem ConfigurationCall.unresolved_of_edit {call : ConfigurationCall} {fault : ConfigureError}
    (failed : call.edit (some properties) = .error fault) : Unresolved properties fault := by
  cases call with
  | set option value => exact value.unresolved_of_eval (Except.map_eq_error_iff.mp (Except.map_eq_error_iff.mp failed))
  | property group key value =>
    obtain first | ⟨name, _, failed⟩ := Except.bind_eq_error_iff.mp failed
    · exact key.unresolved_of_eval (Except.map_eq_error_iff.mp first)
    · have second := Except.eq_error_of_bind_pure failed
      exact value.unresolved_of_eval (Except.map_eq_error_iff.mp second)

/-- A call that resolves early comes to an edit that means the same, unless a placeholder does not resolve. -/
theorem ConfigurationCall.Early.edit (values : properties.Braceless) {call call' : ConfigurationCall}
    (early : call.Early (Operand.BracelessDefaults properties) call') :
    (∃ fault, call'.edit (some properties) = .error fault ∧ Unresolved properties fault) ∨
      ∃ edit edit', call.edit (some properties) = .ok edit ∧ call'.edit (some properties) = .ok edit' ∧
        edit.SameMeaning properties edit' := by
  cases early with
  | same =>
    cases evaluated : call.edit (some properties) with
    | error fault => exact .inl ⟨fault, rfl, call.unresolved_of_edit evaluated⟩
    | ok edit => exact .inr ⟨edit, edit, rfl, rfl, .refl edit⟩
  | resolved resolves defaults =>
    have text := resolved_early values defaults
    cases resolves with
    | set option =>
      obtain ⟨fault, failed, unresolved⟩ | ⟨text, resolved, late, soon, same⟩ := text
      · exact .inl ⟨fault, by rw [ConfigurationCall.edit, failed]; rfl, unresolved⟩
      · exact .inr ⟨_, _, by rw [ConfigurationCall.edit, late]; rfl, by rw [ConfigurationCall.edit, soon]; rfl,
          .set option same⟩
    | property group key =>
      simp only [ConfigurationCall.edit]
      cases named : key.evalText (some properties) with
      | error fault => exact .inl ⟨fault, rfl, key.unresolved_of_eval (Except.map_eq_error_iff.mp named)⟩
      | ok name =>
        obtain ⟨fault, failed, unresolved⟩ | ⟨text, resolved, late, soon, same⟩ := text
        · exact .inl ⟨fault, by rw [failed]; rfl, unresolved⟩
        · exact .inr ⟨_, _, by rw [late]; rfl, by rw [soon]; rfl, .property group name same⟩

/-- Calls that resolve early leave a draft that means the same, unless a placeholder does not resolve. -/
theorem applyConfigurationCalls_early (values : properties.Braceless) {calls calls' : List ConfigurationCall}
    (related : List.Forall₂ (ConfigurationCall.Early (Operand.BracelessDefaults properties)) calls calls')
    {draft draft' : RestConfigurationDraft} (drafts : meaning properties draft = meaning properties draft') :
    (∃ fault, (applyConfigurationCalls (some properties) draft' calls').2 = .error fault ∧
        Unresolved properties fault) ∨
      (applyConfigurationCalls (some properties) draft calls).2 =
          (applyConfigurationCalls (some properties) draft' calls').2 ∧
        meaning properties (applyConfigurationCalls (some properties) draft calls).1 =
          meaning properties (applyConfigurationCalls (some properties) draft' calls').1 := by
  induction related generalizing draft draft' with
  | nil => exact .inr ⟨rfl, drafts⟩
  | cons first _ ih =>
    simp only [applyConfigurationCalls, ConfigurationCall.apply_eq]
    obtain ⟨fault, failed, unresolved⟩ | ⟨edit, edit', done, done', same⟩ := first.edit values
    · exact .inl ⟨fault, by rw [failed]; rfl, unresolved⟩
    · rw [done, done']
      exact ih (same.apply drafts)

/-! ### Runs -/

/-- Outcomes of which the second one may fail because a placeholder does not resolve, and that agree otherwise, up to
the texts that mean the same against properties. -/
def sameMeaning (properties : Properties) : Likeness where
  relates configurations configurations' :=
    configurations.map (Ledger.map (meaning properties)) = configurations'.map (Ledger.map (meaning properties))
  excuses := Unresolved properties

theorem ledgers_of_sameMeaning {d d' : Definitions} (alike : (sameMeaning properties).Holds d d') :
    (d.configurations.getD .empty).map (meaning properties) =
      (d'.configurations.getD .empty).map (meaning properties) := by
  have configurations : d.configurations.map _ = d'.configurations.map _ := alike.configurations
  rw [← Option.getD_map (Ledger.map _), ← Option.getD_map (Ledger.map _), configurations]

/-- A REST configuration is defined with the same meaning when some of its texts are resolved early. -/
theorem runs_restConfiguration_early (values : properties.Braceless) (component : Option Operand)
    {calls calls' : List ConfigurationCall}
    (related : List.Forall₂ (ConfigurationCall.Early (Operand.BracelessDefaults properties)) calls calls') :
    (sameMeaning properties).Runs (runRestConfiguration (some properties) component calls)
      (runRestConfiguration (some properties) component calls') := by
  intro d d' alike
  rw [runRestConfiguration_run, runRestConfiguration_run]
  cases Operand.evalOptional (some properties) component with
  | error fault => exact .inr ⟨rfl, alike⟩
  | ok name =>
    have ledgers := ledgers_of_sameMeaning alike
    have drafts : meaning properties (((d.configurations.getD .empty).get? (name.getD "")).getD
          (freshDraft (name.getD ""))) =
        meaning properties (((d'.configurations.getD .empty).get? (name.getD "")).getD
          (freshDraft (name.getD ""))) := by
      have found := congrArg (Ledger.get? · (name.getD "")) ledgers
      simp only [Ledger.get?_map] at found
      rw [← Option.getD_map (meaning properties), ← Option.getD_map (meaning properties), found]
    obtain failed | ⟨results, changed⟩ := applyConfigurationCalls_early values related drafts
    · exact .inl failed
    · refine .inr ⟨results, alike.routes, alike.services, ?_⟩
      simp only [sameMeaning, Option.map_some, Ledger.map_put, ledgers, changed]

/-- Instructions and the ones that resolve early run alike when the methods do. -/
theorem runs_instructions_early (values : properties.Braceless) {call call' : String → Run Unit}
    (calls : ∀ method, (sameMeaning properties).Runs (call method) (call' method))
    {instructions instructions' : List Instruction}
    (early : List.Forall₂ (Instruction.Early (Operand.BracelessDefaults properties)) instructions instructions') :
    (sameMeaning properties).Runs (runInstructions (some properties) call instructions)
      (runInstructions (some properties) call' instructions') := by
  refine Likeness.runs_forall₂ (fun i i' early => ?_) (fun i i' early => ?_) early
  · cases early with
    | restConfiguration component related =>
      rw [runInstructions_restConfiguration, runInstructions_restConfiguration]
      exact runs_restConfiguration_early values component related
    | same =>
      refine Likeness.runs_singleton calls fun component calls _ => runs_restConfiguration_early values component ?_
      exact List.forall₂_same.mpr fun call _ => .same call
  · cases early with
    | restConfiguration => exact ⟨nofun, nofun⟩
    | same => exact Iff.rfl

namespace Program.Early

variable {p p' : Program}

/-- Methods run alike, with any room for open calls. -/
theorem runs_call (values : properties.Braceless) (early : p.Early (Operand.BracelessDefaults properties) p')
    (room : Nat) (method : String) :
    (sameMeaning properties).Runs (p.call (some properties) room method) (p'.call (some properties) room method) :=
  Likeness.runs_call early.name
    (fun calls method => (early.methods method).imp fun _ _ => runs_instructions_early values calls) room method

/-- Instances are made of both programs, or of neither. -/
theorem create (early : p.Early (Operand.BracelessDefaults properties) p') {qualifiedName source : String}
    (compiled : compile qualifiedName source = .ok p) :
    (∃ error, Instance.create p = .error error ∧ Instance.create p' = .error error) ∨
      Instance.create p = .ok { program := p } ∧ Instance.create p' = .ok { program := p' } := by
  obtain ⟨_, c, _, _, lowered⟩ := exists_of_compile_eq_ok compiled
  obtain ⟨fields, bodies, accepted⟩ := ClassDeclaration.accepted_of_lower lowered
  unfold Instance.create
  rw [← early.isAbstract, ← early.qualifiedName, ← early.constructor]
  cases p.isAbstract with
  | true => exact .inl ⟨_, rfl, rfl⟩
  | false =>
    cases constructor : p.constructor with
    | none => exact .inl ⟨_, rfl, rfl⟩
    | some body =>
      have ending := accepted.ending_of_constructor constructor
      have same : p'.run none body = p.run none body :=
        runInstructions_of_noCall (invoke_notMem_of_ending ending) _ _
      have untouched : ((p.run none body).run.run {}).2 = {} := (run_ending ending {}).1
      simp only [Bool.false_eq_true, if_false, same]
      rcases ran : (p.run none body).run.run {} with ⟨fault | _, definitions⟩
      · exact .inl ⟨_, rfl, rfl⟩
      · rw [ran] at untouched
        obtain rfl : definitions = {} := untouched
        exact .inr ⟨rfl, rfl⟩

end Program.Early

/-! ### Bundles -/

/-- The bundle of what was defined. -/
def Definitions.bundle (d : Definitions) : Bundle := ⟨d.routes, d.services, d.configurations.getD .empty⟩

/-- The bundle of a new instance of a route builder is what its method `configure` defines. -/
theorem Instance.bundle_of_body {p : Program} {body : List Instruction} (builder : p.isRouteBuilder = true)
    (stored : p.methods.get? "configure" = some body) (properties : Properties) :
    Instance.bundle { program := p } properties =
      (fun _ => ((p.run (some properties) body).run.run {}).2.bundle) <$>
        ((p.run (some properties) body).run.run {}).1 := by
  simp only [Instance.bundle, Instance.bind, Instance.configure, builder, stored, if_true, Bool.false_eq_true, if_false]
  generalize (p.run (some properties) body).run.run {} = ended
  rcases ended with ⟨_ | _, d⟩ <;> rfl

/-- What a bundle means against properties: its routes and services, and what its REST configurations mean. -/
def bundleMeaning (properties : Properties) (b : Bundle) : List Route × List RestService × Ledger Meaning :=
  (b.routes, b.services, b.configurations.map (meaning properties))

namespace Program.Early

variable {p p' : Program}

/-- The bundles of the two programs mean the same, unless a placeholder fails to resolve. -/
theorem bundle (values : properties.Braceless) (early : p.Early (Operand.BracelessDefaults properties) p') :
    (∃ fault, Instance.bundle { program := p' } properties = .error fault ∧ Unresolved properties fault) ∨
      bundleMeaning properties <$> Instance.bundle { program := p } properties =
        bundleMeaning properties <$> Instance.bundle { program := p' } properties := by
  by_cases builder : p.isRouteBuilder
  · have bodies := early.methods "configure"
    generalize stored : p.methods.get? "configure" = own, stored' : p'.methods.get? "configure" = own' at bodies
    cases bodies with
    | none =>
      refine .inr ?_
      simp [Instance.bundle, Instance.bind, Instance.configure, stored, stored', ← early.isRouteBuilder, early.name]
    | @some body body' bodies =>
      rw [Instance.bundle_of_body builder stored, Instance.bundle_of_body (early.isRouteBuilder ▸ builder) stored']
      have alike : (sameMeaning properties).Ends ((p.run (some properties) body).run.run {})
          ((p'.run (some properties) body').run.run {}) :=
        runs_instructions_early values (early.runs_call values callDepthLimit) bodies {} {} ⟨rfl, rfl, rfl⟩
      generalize (p.run (some properties) body).run.run {} = late at alike ⊢
      generalize (p'.run (some properties) body').run.run {} = soon at alike ⊢
      obtain ⟨result, d⟩ := late
      obtain ⟨result', d'⟩ := soon
      obtain ⟨fault, failed, unresolved⟩ | ⟨results, same⟩ := alike
      · obtain rfl : result' = .error fault := failed
        exact .inl ⟨fault, rfl, unresolved⟩
      · obtain rfl : result = result' := results
        cases result with
        | error fault => exact .inr rfl
        | ok _ =>
          have routes : d.routes = d'.routes := same.routes
          have services : d.services = d'.services := same.services
          refine .inr (congrArg Except.ok ?_)
          rw [bundleMeaning, bundleMeaning, Definitions.bundle, Definitions.bundle, routes, services,
            ledgers_of_sameMeaning same]
  · refine .inr ?_
    simp [Instance.bundle, ← early.isRouteBuilder, builder]

end Program.Early

end RouteDepot.RouteClass
