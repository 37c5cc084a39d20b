import RouteDepot.Proofs.Layout.Compiled
import RouteDepot.Proofs.Lowering.Body
import RouteDepot.Proofs.Lowering.Call
import RouteDepot.Proofs.Naming.Compiled
import RouteDepot.Proofs.Placeholders.Early
import RouteDepot.Proofs.Printing.Units

/-! # Sources that resolve early

A source may be rewritten so that its methods ask the context for the texts of REST configurations: then the program that
it compiles to is the one before, with these texts resolved early. Nothing else may change, but the layout.
-/

namespace List.Forall₂

variable {α β γ δ : Type} {R : α → β → Prop} {S : α → γ → Prop} {T : β → δ → Prop} {U : γ → δ → Prop}

/-- What related items come to is related when this is so for every pair of items. -/
theorem outcomes (step : ∀ a b c d, R a b → S a c → T b d → U c d) {as : List α} {bs : List β} {cs : List γ}
    {ds : List δ} (related : Forall₂ R as bs) (first : Forall₂ S as cs) (second : Forall₂ T bs ds) :
    Forall₂ U cs ds := by
  induction related generalizing cs ds with
  | nil =>
    cases first
    cases second
    exact .nil
  | cons head _ ih =>
    obtain _ | ⟨here, later⟩ := first
    obtain _ | ⟨here', later'⟩ := second
    exact .cons (step _ _ _ _ head here here') (ih later later')

end List.Forall₂

namespace RouteDepot.RouteClass

variable {property : Operand → Prop}

/-! ### Expressions and calls -/

/-- The second expression asks the context to resolve the placeholders of the first one. -/
inductive Expression.Resolving (arg : Expression) : Expression → Prop
  | intro {target : Expression} {callee : Ident} (span : Span) (context : target.isGetContext = true)
      (named : callee.name = "resolvePropertyPlaceholders") : Resolving arg (.callOn target callee [arg] span)

/-- An expression that asks the context stands for what the placeholders of the text come to. -/
theorem Expression.Resolving.operand_eq_done {scope : Scope} {arg resolving : Expression}
    (resolves : arg.Resolving resolving) {operand : Operand} (lowered : resolving.operand scope = .done operand) :
    ∃ text, arg.operand scope = .done text ∧ operand = .placeholders text := by
  obtain ⟨span, context, named⟩ := resolves
  simp only [Expression.operand, context, named, and_self, if_true] at lowered
  split at lowered
  · exact absurd lowered Lowered.fail_ne_done
  · simp only [Lowered.bind_eq_done_iff, Operand.checkArgument_eq_done_iff, Lowered.pure_eq_done, Lowered.done_inj]
      at lowered
    obtain ⟨text, found, _, ⟨rfl, _⟩, rfl⟩ := lowered
    exact ⟨_, found, rfl⟩

/-- The second call is the first one, or it resolves the last argument of the first one early, which has a property
whatever the names in it stand for. -/
inductive ChainCall.Early (property : Operand → Prop) : ChainCall → ChainCall → Prop
  | same (call : ChainCall) : Early property call call
  | resolved (name : Ident) (front : List Expression) {arg resolving : Expression} (span span' : Span) :
      arg.Resolving resolving → (∀ scope text, arg.operand scope = .done text → property text) →
      Early property ⟨name, front ++ [arg], span⟩ ⟨name, front ++ [resolving], span'⟩

/-- A property group is no option. -/
theorem restOption?_eq_none {name : String} {group : RestPropertyGroup} (found : restPropertyGroup? name = some group) :
    restOption? name = none := by
  unfold restPropertyGroup? at found
  split at found
  · rfl
  · rfl
  · rfl
  · rfl
  · cases found

/-- Calls on REST configurations of which the second resolves early say the same, but resolve a text early. -/
theorem ChainCall.Early.configurationCall {scope : Scope} {call call' : ChainCall} (early : call.Early property call')
    {c c' : Option ConfigurationCall} (meant : call.configurationCall scope = .done c)
    (meant' : call'.configurationCall scope = .done c') :
    Option.Rel (ConfigurationCall.Early property) c c' := by
  cases early with
  | same =>
    obtain rfl := Lowered.done_inj.mp (meant.symm.trans meant')
    cases c with
    | none => exact .none
    | some call => exact .some (.same call)
  | resolved name front span span' resolves holds =>
    cases saysOfConfiguration_of_configurationCall meant with
    | «end» _ args => exact absurd args (by simp)
    | set found args gives =>
      cases saysOfConfiguration_of_configurationCall meant' with
      | «end» _ args' => exact absurd args' (by simp)
      | property found' => exact absurd (found.symm.trans (restOption?_eq_none found')) nofun
      | set found' args' gives' =>
        obtain ⟨rfl, rfl⟩ := Prod.mk.inj (Option.some.inj (found.symm.trans found'))
        obtain ⟨rfl, rfl⟩ : front = [] ∧ _ := by simpa using List.append_inj' (args.trans (List.nil_append _).symm) rfl
        obtain rfl := List.singleton_inj.mp args'
        obtain ⟨text, lowered, rfl⟩ := resolves.operand_eq_done gives'.lowered
        obtain rfl := Lowered.done_inj.mp (gives.lowered.symm.trans lowered)
        exact .some (.resolved (.set _) (holds scope _ lowered))
    | property found args key value =>
      cases saysOfConfiguration_of_configurationCall meant' with
      | «end» _ args' => exact absurd args' (by simp)
      | set found' => exact absurd (found'.symm.trans (restOption?_eq_none found)) nofun
      | property found' args' key' value' =>
        obtain rfl := Option.some.inj (found.symm.trans found')
        obtain ⟨rfl, rfl⟩ : front = [_] ∧ _ = _ := List.append_singleton_inj.mp args
        obtain ⟨same, rfl⟩ : [_] = [_] ∧ _ = _ := List.append_singleton_inj.mp args'
        obtain rfl := List.singleton_inj.mp same
        obtain ⟨text, lowered, rfl⟩ := resolves.operand_eq_done value'.lowered
        obtain rfl := Lowered.done_inj.mp (value.lowered.symm.trans lowered)
        obtain rfl := Lowered.done_inj.mp (key.lowered.symm.trans key'.lowered)
        exact .some (.resolved (.property _ _) (holds scope _ lowered))

/-! ### Statements -/

/-- The second statement is the first one, or it resolves texts of REST configurations in it early. -/
inductive Statement.Early (property : Operand → Prop) : Statement → Statement → Prop
  | same (s : Statement) : Early property s s
  | restConfiguration {e e' : Expression} {first : ChainCall} {later later' : List ChainCall} :
      e.chainCalls = .ok (first :: later) → e'.chainCalls = .ok (first :: later') →
      first.name.name = "restConfiguration" → List.Forall₂ (ChainCall.Early property) later later' →
      Early property (.expression e) (.expression e')
  | block {body body' : List Statement} (span : Span) : List.Forall₂ (Early property) body body' →
      Early property (.block body span) (.block body' span)

/-- A statement on a REST configuration defines the same, but resolves texts early. -/
theorem lowerChain_early {scope : Scope} {first : ChainCall} {later later' : List ChainCall}
    (named : first.name.name = "restConfiguration") (early : List.Forall₂ (ChainCall.Early property) later later')
    {i i' : Instruction} (lowered : lowerChain scope first later = .done i)
    (lowered' : lowerChain scope first later' = .done i') : i.Early property i' := by
  obtain ⟨_, ⟨_, declared, _, rfl⟩ | ⟨notDeclared, defines⟩⟩ := lowerChain_eq_done lowered
  · obtain ⟨_, ⟨_, _, _, rfl⟩ | ⟨notDeclared, _⟩⟩ := lowerChain_eq_done lowered'
    · exact .same _
    · exact absurd (.inl declared) notDeclared
  · obtain ⟨_, ⟨_, declared, _, _⟩ | ⟨_, defines'⟩⟩ := lowerChain_eq_done lowered'
    · exact absurd (.inl declared) notDeclared
    · simp only [named, String.reduceEq, false_and, false_or, true_and] at defines defines'
      obtain ⟨component, calls, opening, meant, rfl⟩ := lowerRestConfiguration_eq_done_iff.mp defines
      obtain ⟨_, calls', opening', meant', rfl⟩ := lowerRestConfiguration_eq_done_iff.mp defines'
      obtain rfl := Lowered.done_inj.mp (opening.symm.trans opening')
      have related := early.outcomes (fun _ _ _ _ early => early.configurationCall) meant meant'
      exact .restConfiguration component (List.rel_filterMap (fun _ _ same => same) related)

/-- The same statements with texts resolved early: as many instructions, the same local variables, and the same end. -/
structure LoweredBody.Early (property : Operand → Prop) (b b' : LoweredBody) : Prop where
  instructions : List.Forall₂ (Instruction.Early property) b.instructions b'.instructions
  ends : b.ends = b'.ends
  locals : b.locals = b'.locals

theorem LoweredBody.early_same (b : LoweredBody) : b.Early property b :=
  ⟨List.forall₂_same.mpr fun i _ => .same i, rfl, rfl⟩

mutual

theorem Statement.Early.lower {s s' : Statement} (early : s.Early property s') (scope : Scope)
    (clean : (s.lower scope).faults = []) (clean' : (s'.lower scope).faults = []) :
    (s.lower scope).Early property (s'.lower scope) := by
  match early with
  | .same s => exact LoweredBody.early_same _
  | .restConfiguration chain chain' named calls =>
    rw [Statement.lower] at clean clean' ⊢
    rw [Statement.lower]
    obtain ⟨i, lowered, same⟩ := LoweredBody.ofInstruction_eq_of_clean (Expression.explained_instruction _ _) clean
    obtain ⟨i', lowered', same'⟩ := LoweredBody.ofInstruction_eq_of_clean (Expression.explained_instruction _ _) clean'
    rw [same, same']
    rw [Expression.instruction, chain] at lowered
    rw [Expression.instruction, chain'] at lowered'
    exact ⟨.cons (lowerChain_early named calls lowered lowered') .nil, rfl, rfl⟩
  | .block span bodies =>
    rw [Statement.lower] at clean clean' ⊢
    rw [Statement.lower]
    have body := lowerStatements_early bodies scope clean clean'
    exact ⟨body.instructions, body.ends, rfl⟩
termination_by sizeOf s

theorem lowerStatements_early {statements statements' : List Statement}
    (early : List.Forall₂ (Statement.Early property) statements statements') (scope : Scope)
    (clean : (lowerStatements scope statements).faults = []) (clean' : (lowerStatements scope statements').faults = []) :
    (lowerStatements scope statements).Early property (lowerStatements scope statements') := by
  match early with
  | .nil => exact LoweredBody.early_same _
  | @List.Forall₂.cons _ _ _ statement statement' others others' first later =>
    have one := first.lower scope (clean_of_lowerStatements_cons clean) (clean_of_lowerStatements_cons clean')
    cases ends : (statement.lower scope).ends with
    | true =>
      rw [lowerStatements_cons_of_ends ends clean, lowerStatements_cons_of_ends (one.ends.symm.trans ends) clean']
      exact one
    | false =>
      have ends' := one.ends.symm.trans ends
      rw [lowerStatements_cons_of_continues ends] at clean ⊢
      rw [lowerStatements_cons_of_continues ends'] at clean' ⊢
      have rest := lowerStatements_early later { scope with locals := (statement.lower scope).locals }
        (List.append_eq_nil_iff.mp clean).2 (one.locals ▸ (List.append_eq_nil_iff.mp clean').2)
      dsimp only
      rw [← one.locals]
      exact ⟨List.rel_append one.instructions rest.instructions, rest.ends, rest.locals⟩
termination_by sizeOf statements

end

/-- The instructions of a body define the same, but resolve texts early. -/
theorem Block.lower_early {b b' : Block} (early : List.Forall₂ (Statement.Early property) b.body b'.body) {scope : Scope}
    {instructions instructions' : List Instruction} (lowered : b.lower scope = .done instructions)
    (lowered' : b'.lower scope = .done instructions') :
    List.Forall₂ (Instruction.Early property) instructions instructions' := by
  obtain ⟨value, clean⟩ := Lowered.eq_done_iff.mp lowered
  obtain ⟨value', clean'⟩ := Lowered.eq_done_iff.mp lowered'
  obtain rfl := Option.some.inj value
  obtain rfl := Option.some.inj value'
  exact (lowerStatements_early early scope clean clean').instructions

/-! ### Classes -/

/-- Methods that differ in their bodies only, in that the second one resolves texts early. -/
structure MethodDeclaration.Early (property : Operand → Prop) (m m' : MethodDeclaration) : Prop where
  head : { m with body := none } = { m' with body := none }
  bodies : Option.Rel (fun b b' : Block => List.Forall₂ (Statement.Early property) b.body b'.body) m.body m'.body

/-- The second member is the first one, or it is a method that resolves texts early. -/
inductive Member.Early (property : Operand → Prop) : Member → Member → Prop
  | same (member : Member) : Early property member member
  | method {m m' : MethodDeclaration} : m.Early property m' → Early property (.method m) (.method m')

/-- Classes that differ in their methods only, in that those of the second one resolve texts early. -/
structure ClassDeclaration.Early (property : Operand → Prop) (c c' : ClassDeclaration) : Prop where
  head : { c with members := [] } = { c' with members := [] }
  members : List.Forall₂ (Member.Early property) c.members c'.members

/-- Units that differ in their classes only, in that those of the second one resolve texts early. -/
structure SourceUnit.Early (property : Operand → Prop) (u u' : SourceUnit) : Prop where
  head : { u with classes := [] } = { u' with classes := [] }
  classes : List.Forall₂ (ClassDeclaration.Early property) u.classes u'.classes

theorem Statement.forall₂_early_same (body : List Statement) : List.Forall₂ (Statement.Early property) body body :=
  List.forall₂_same.mpr fun statement _ => .same statement

namespace MethodDeclaration.Early

variable {m m' : MethodDeclaration}

theorem refl (m : MethodDeclaration) : m.Early property m where
  head := rfl
  bodies := by
    cases m.body with
    | none => exact .none
    | some body => exact .some (Statement.forall₂_early_same body.body)

theorem name_eq (early : m.Early property m') : m.name = m'.name :=
  (MethodDeclaration.mk.inj early.head).2.2.1

theorem parameters_eq (early : m.Early property m') : m.parameters = m'.parameters :=
  (MethodDeclaration.mk.inj early.head).2.2.2.1

end MethodDeclaration.Early

namespace ClassDeclaration.Early

variable {c c' : ClassDeclaration}

theorem name_eq (early : c.Early property c') : c.name = c'.name := (ClassDeclaration.mk.inj early.head).2.1

theorem parent_eq (early : c.Early property c') : c.parent = c'.parent := (ClassDeclaration.mk.inj early.head).2.2.1

theorem modifiers_eq (early : c.Early property c') : c.modifiers = c'.modifiers := (ClassDeclaration.mk.inj early.head).1

/-- What is said by the members that are no methods is the same. -/
theorem filterMap_eq {α : Type} (early : c.Early property c') {f : Member → Option α} (noMethod : ∀ m, f (.method m) = none) :
    c.members.filterMap f = c'.members.filterMap f := by
  rw [← List.forall₂_eq_eq_eq]
  refine List.rel_filterMap (fun m m' related => ?_) early.members
  cases related with
  | same =>
    cases f m with
    | none => exact .none
    | some _ => exact .some rfl
  | method =>
    rw [noMethod, noMethod]
    exact .none

theorem fields_eq (early : c.Early property c') : c.fields = c'.fields := early.filterMap_eq fun _ => rfl

theorem constructors_eq (early : c.Early property c') : c.constructors = c'.constructors := early.filterMap_eq fun _ => rfl

theorem methods (early : c.Early property c') : List.Forall₂ (MethodDeclaration.Early property) c.methods c'.methods := by
  refine List.rel_filterMap (fun m m' related => ?_) early.members
  cases related with
  | same =>
    cases m with
    | method m => exact .some (.refl m)
    | _ => exact .none
  | method methods => exact .some methods

theorem methodNames_eq (early : c.Early property c') (chosen : Bool → Bool) :
    (c.methods.filter fun m => chosen m.parameters.isEmpty).map (·.name.name) =
      (c'.methods.filter fun m => chosen m.parameters.isEmpty).map (·.name.name) := by
  have related : List.Forall₂ (MethodDeclaration.Early property) (c.methods.filter fun m => chosen m.parameters.isEmpty)
      (c'.methods.filter fun m => chosen m.parameters.isEmpty) := by
    refine List.rel_filter (fun m m' methods => ?_) early.methods
    beta_reduce
    rw [methods.parameters_eq]
  rw [← List.forall₂_eq_eq_eq, List.forall₂_map_left_iff, List.forall₂_map_right_iff]
  exact related.imp fun _ _ methods => congrArg Ident.name methods.name_eq

theorem scope_eq (early : c.Early property c') (fields : List (String × Value)) : c.scope fields = c'.scope fields := by
  have plain := early.methodNames_eq id
  have parameterized := early.methodNames_eq not
  simp only [id] at plain
  rw [scope, scope, early.name_eq, plain, parameterized]

/-- Methods that resolve texts early define the same, but resolve the texts early. -/
theorem lowerMethod {scope : Scope} {isRouteBuilder : Bool} {m m' : MethodDeclaration} (early : m.Early property m')
    {body body' : Option (String × List Instruction)} (lowered : c.lowerMethod scope isRouteBuilder m = .done body)
    (lowered' : c'.lowerMethod scope isRouteBuilder m' = .done body') :
    Option.Rel (fun entry entry' => entry.1 = entry'.1 ∧ List.Forall₂ (Instruction.Early property) entry.2 entry'.2)
      body body' := by
  have bodies := early.bodies
  unfold ClassDeclaration.lowerMethod at lowered lowered'
  obtain ⟨_, _, lowered⟩ := Lowered.bind_eq_done_iff.mp lowered
  obtain ⟨_, _, lowered'⟩ := Lowered.bind_eq_done_iff.mp lowered'
  rw [← early.parameters_eq, ← early.name_eq] at lowered'
  generalize m.body = own, m'.body = own' at bodies lowered lowered'
  cases bodies with
  | none =>
    obtain rfl := Lowered.done_inj.mp lowered
    obtain rfl := Lowered.done_inj.mp lowered'
    exact .none
  | some statements =>
    cases plain : m.parameters.isEmpty with
    | false =>
      simp only [plain, Bool.false_eq_true, if_false] at lowered lowered'
      obtain rfl := Lowered.done_inj.mp lowered
      obtain rfl := Lowered.done_inj.mp lowered'
      exact .none
    | true =>
      simp only [plain, if_true, Lowered.bind_eq_done_iff, Lowered.pure_eq_done, Lowered.done_inj] at lowered lowered'
      obtain ⟨instructions, done, rfl⟩ := lowered
      obtain ⟨instructions', done', rfl⟩ := lowered'
      exact .some ⟨rfl, Block.lower_early statements done done'⟩

theorem lowerParent_eq (early : c.Early property c') : c.lowerParent = c'.lowerParent := by
  rw [lowerParent, lowerParent, early.parent_eq]

theorem lowerConstructor_eq (early : c.Early property c') (scope : Scope) :
    c.lowerConstructor scope = c'.lowerConstructor scope := by
  rw [lowerConstructor, lowerConstructor, early.constructors_eq, early.name_eq]

/-- The programs of both classes are the same, but the second one resolves texts early. -/
theorem lower (early : c.Early property c') {package : Option String} {p p' : Program} (lowered : c.lower package = .done p)
    (lowered' : c'.lower package = .done p') : p.Early property p' := by
  obtain ⟨fields, bodies, accepted⟩ := ClassDeclaration.accepted_of_lower lowered
  obtain ⟨fields', bodies', accepted'⟩ := ClassDeclaration.accepted_of_lower lowered'
  obtain ⟨name, qualified⟩ := ClassDeclaration.names_of_lower lowered
  obtain ⟨name', qualified'⟩ := ClassDeclaration.names_of_lower lowered'
  have builders : p.isRouteBuilder = p'.isRouteBuilder :=
    Lowered.done_inj.mp (accepted.parent_done.symm.trans (early.lowerParent_eq.trans accepted'.parent_done))
  obtain rfl : fields = fields' := by
    refine Lowered.done_inj.mp (accepted.fields_done.symm.trans ?_)
    rw [early.scope_eq, early.fields_eq]
    exact accepted'.fields_done
  refine ⟨?_, ?_, ?_, builders, ?_, ?_⟩
  · rw [name, name', early.name_eq]
  · rw [qualified, qualified', early.name_eq]
  · rw [accepted.abstract_eq, accepted'.abstract_eq, early.modifiers_eq]
  · refine Lowered.done_inj.mp (accepted.constructor_done.symm.trans ?_)
    rw [early.lowerConstructor_eq, early.scope_eq]
    exact accepted'.constructor_done
  · have done' : List.Forall₂ (fun m body => c'.lowerMethod (c.scope fields) p.isRouteBuilder m = .done body)
        c'.methods bodies' := by
      rw [early.scope_eq, builders]
      exact accepted'.methods_done
    have entries := early.methods.outcomes (fun m m' body body' methods
      (lowered : c.lowerMethod (c.scope fields) p.isRouteBuilder m = .done body)
      (lowered' : c'.lowerMethod (c.scope fields) p.isRouteBuilder m' = .done body') =>
        lowerMethod methods lowered lowered') accepted.methods_done done'
    intro method
    rw [accepted.methods_eq, accepted'.methods_eq]
    exact Dictionary.get?_ofList_related (List.rel_filterMap (fun _ _ same => same) entries) method

end ClassDeclaration.Early

/-! ### Sources -/

/-- The programs of both units are the same, but the second one resolves texts early. -/
theorem SourceUnit.Early.lower {u u' : SourceUnit} (early : u.Early property u') {qualifiedName : String} {p p' : Program}
    (lowered : u.lower qualifiedName = .ok p) (lowered' : u'.lower qualifiedName = .ok p') :
    p.Early property p' := by
  obtain ⟨c, found, done⟩ := SourceUnit.exists_of_lower_eq_ok lowered
  obtain ⟨c', found', done'⟩ := SourceUnit.exists_of_lower_eq_ok lowered'
  have related := early.classes.find? (·.name.name == (SourceUnit.splitName qualifiedName).2)
    (·.name.name == (SourceUnit.splitName qualifiedName).2) fun _ _ classes => by rw [classes.name_eq]
  rw [found, found'] at related
  obtain ⟨classes⟩ := related
  exact classes.lower done done'

/-- The second source is the first one with texts of REST configurations resolved early, however they are laid out. -/
def ResolvesEarly (property : Operand → Prop) (source source' : String) : Prop :=
  ∃ u v, SourceUnit.ofTokens (Lexed.ofSource source).tokens (Lexed.ofSource source).stopSpan = .ok u ∧
    SourceUnit.ofTokens (Lexed.ofSource source').tokens (Lexed.ofSource source').stopSpan = .ok v ∧
    u.erase.Early property v.erase

/-- Sources that spell two units resolve early when the units do. -/
theorem resolvesEarly_of_print {u v : SourceUnit} (early : u.erase.Early property v.erase)
    (wellFormed : u.WellFormed ∧ v.WellFormed) (within : u.WithinLimits ∧ v.WithinLimits) {source source' : String}
    (spelled : (Lexed.ofSource source).tokens.map (·.kind) = u.print)
    (spelled' : (Lexed.ofSource source').tokens.map (·.kind) = v.print) : ResolvesEarly property source source' := by
  obtain ⟨parsed, formed, same⟩ := SourceUnit.exists_of_reads (Parser.sourceUnit_reads wellFormed.1 within.1) spelled
    (Lexed.ofSource source).stopSpan
  obtain ⟨parsed', formed', same'⟩ := SourceUnit.exists_of_reads (Parser.sourceUnit_reads wellFormed.2 within.2) spelled'
    (Lexed.ofSource source').stopSpan
  exact ⟨parsed, parsed', formed, formed', by rwa [same, same']⟩

/-- A source that resolves texts early compiles to the program of one that does not, with these texts resolved
early. -/
theorem compile_early {qualifiedName source source' : String} (early : ResolvesEarly property source source')
    {p p' : Program} (compiled : compile qualifiedName source = .ok p)
    (compiled' : compile qualifiedName source' = .ok p') : p.Early property p' := by
  obtain ⟨u, v, parsed, parsed', early⟩ := early
  obtain ⟨_, again, lowered⟩ := unit_of_compile_eq_ok compiled
  obtain ⟨_, again', lowered'⟩ := unit_of_compile_eq_ok compiled'
  obtain rfl := Except.ok.inj (parsed.symm.trans again)
  obtain rfl := Except.ok.inj (parsed'.symm.trans again')
  exact early.lower (SourceUnit.lower_erase_eq_ok_iff.mpr lowered) (SourceUnit.lower_erase_eq_ok_iff.mpr lowered')

end RouteDepot.RouteClass
