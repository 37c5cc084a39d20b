import RouteDepot.Proofs.Locals.Reaching
import RouteDepot.Proofs.References.Uses

/-! # Local variables that are not used

What a run does depends on local variables only by the names that the statements refer to. Two classes that differ in
nothing but the initialisers of local variables which the later statements of their blocks do not refer to are
configured alike.
-/

namespace RouteDepot.RouteClass

/-! ### References of statements -/

mutual

/-- The references of a statement. -/
def Statement.references : Statement → List Reference
  | .expression value | .throw value _ => value.references
  | .declare _ _ value => value.elim [] Expression.references
  | .block body _ => referencesIn body
  | .return _ | .empty => []

/-- The references of statements. -/
def referencesIn : List Statement → List Reference
  | [] => []
  | statement :: later => statement.references ++ referencesIn later

end

/-- Bodies that differ only in initialisers of local variables that the later statements do not refer to. -/
inductive DifferInUnused : List Statement → List Statement → Prop
  | nil : DifferInUnused [] []
  | same {statement : Statement} {later later' : List Statement} : (∀ body span, statement ≠ .block body span) →
      DifferInUnused later later' → DifferInUnused (statement :: later) (statement :: later')
  | block {body body' later later' : List Statement} (span : Span) : DifferInUnused body body' →
      DifferInUnused later later' → DifferInUnused (.block body span :: later) (.block body' span :: later')
  | unused {type : TypeName} {name : Ident} {later later' : List Statement} (value value' : Option Expression) :
      .plain name.name ∉ referencesIn later → DifferInUnused later later' →
      DifferInUnused (.declare type name value :: later) (.declare type name value' :: later')

/-- Methods that differ only in initialisers of local variables that are not used. -/
structure MethodDeclaration.DiffersInUnused (m m' : MethodDeclaration) : Prop where
  name : m'.name = m.name
  parameters : m'.parameters = m.parameters
  bodies : Option.Rel (fun body body' => DifferInUnused body.body body'.body) m.body m'.body

/-- Classes with the same fields whose methods differ only in initialisers of local variables that are not used. -/
structure ClassDeclaration.DiffersInUnused (c c' : ClassDeclaration) : Prop where
  fields : c'.fields = c.fields
  methods : List.Forall₂ MethodDeclaration.DiffersInUnused c.methods c'.methods

namespace Direct

variable {env : Environment} {locals locals' : Locals} {off : List String}

/-! ### Agreement -/

/-- Local variables that come to the same, apart from some names. -/
def AgreeApart (env : Environment) (off : List String) (locals locals' : Locals) : Prop :=
  ∀ name ∉ off, env.localValue? locals name = env.localValue? locals' name

/-- None of the references is one of the names. -/
def Avoid (off : List String) (references : List Reference) : Prop := ∀ name ∈ off, .plain name ∉ references

theorem avoid_append {first later : List Reference} :
    Avoid off (first ++ later) ↔ Avoid off first ∧ Avoid off later := by
  simp only [Avoid, List.mem_append, not_or]
  exact forall₂_and

theorem Avoid.notMem {name : String} (avoid : Avoid off [.plain name]) : name ∉ off :=
  fun member => avoid name member (List.mem_singleton_self _)

namespace AgreeApart

/-- An expression that refers to none of the names has the same value. -/
theorem eval_eq (agree : AgreeApart env off locals locals') {e : Expression} (avoid : Avoid off e.references) :
    env.eval locals e = env.eval locals' e := by
  unfold Environment.eval
  fun_induction Environment.evalIn env (env.localValue? locals) e with
  | case1 | case3 => rw [Environment.evalIn]
  | case2 ident => rw [Environment.evalIn, agree _ (Avoid.notMem avoid)]
  | case4 _ _ known => rw [Environment.evalIn, if_pos known]
  | case5 _ _ unknown => rw [Environment.evalIn, if_neg unknown]
  | case6 target callee arg span asked ih =>
    rw [Expression.references, avoid_append, referencesOf, avoid_append] at avoid
    rw [Environment.evalIn, if_pos asked, ih avoid.2.1]
  | case7 _ _ _ _ other => rw [Environment.evalIn, if_neg other]
  | case8 left right ihl ihr =>
    rw [Expression.references, avoid_append] at avoid
    rw [Environment.evalIn, ihl avoid.1, ihr avoid.2]
  | case9 =>
    rw [Environment.evalIn]
    all_goals assumption

theorem argument_eq (agree : AgreeApart env off locals locals') {arg : Expression} (avoid : Avoid off arg.references) :
    env.argument locals arg = env.argument locals' arg := by
  unfold Environment.argument
  split
  · rw [Expression.references, referencesOf, avoid_append] at avoid
    rw [agree.eval_eq avoid.1]
  · rw [agree.eval_eq avoid]

theorem arguments_eq (agree : AgreeApart env off locals locals') {args : List Expression}
    (avoid : Avoid off (referencesOf args)) : env.arguments locals args = env.arguments locals' args := by
  unfold Environment.arguments
  induction args with
  | nil => rfl
  | cons arg later ih =>
    rw [referencesOf, avoid_append] at avoid
    rw [List.mapM_cons, List.mapM_cons, agree.argument_eq avoid.1, ih avoid.2]

theorem chain_eq (agree : AgreeApart env off locals locals') {e : Expression} (avoid : Avoid off e.references) :
    chain env locals e = chain env locals' e := by
  fun_induction chain env locals e with
  | case1 callee args span =>
    rw [Expression.references] at avoid
    rw [chain, agree.arguments_eq avoid]
  | case2 at' callee args span =>
    rw [Expression.references, avoid_append] at avoid
    rw [chain, agree.arguments_eq avoid.2]
  | case3 target callee args span notThis ih =>
    rw [Expression.references, avoid_append] at avoid
    rw [chain, ih avoid.1, agree.arguments_eq avoid.2]
    exact notThis
  | case4 =>
    rw [chain]
    all_goals assumption

theorem runExpression_eq (agree : AgreeApart env off locals locals') {e : Expression} (avoid : Avoid off e.references)
    (call : String → Exec Unit) : runExpression env call locals e = runExpression env call locals' e := by
  rw [runExpression, runExpression, agree.chain_eq avoid]

theorem raise_eq (agree : AgreeApart env off locals locals') {e : Expression} (avoid : Avoid off e.references) :
    raise env locals e = raise env locals' e := by
  unfold raise
  split
  · rfl
  · rw [Expression.references, referencesOf, avoid_append] at avoid
    rw [agree.eval_eq avoid.1]
  · rfl

/-- A declaration with an initialiser that refers to none of the names keeps the agreement. -/
theorem cons (agree : AgreeApart env off locals locals') (declared : String) {value : Option Expression}
    (avoid : Avoid off (value.elim [] Expression.references)) :
    AgreeApart env off ((declared, value) :: locals) ((declared, value) :: locals') := by
  intro name other
  rw [localValue?_cons, localValue?_cons, agree name other]
  cases value with
  | none => rfl
  | some value => rw [Option.elim_some, Option.elim_some, agree.eval_eq avoid]

/-- Whatever is declared with a name, the local variables agree apart from that name. -/
theorem cons_off (agree : AgreeApart env off locals locals') (declared : String) (value value' : Option Expression) :
    AgreeApart env (declared :: off) ((declared, value) :: locals) ((declared, value') :: locals') := by
  intro name other
  obtain ⟨differs, other⟩ := not_or.mp (List.mem_cons.not.mp other)
  rw [localValue?_cons, localValue?_cons, if_neg differs, if_neg differs, agree name other]

end AgreeApart

/-! ### Bodies -/

/-- A statement that is followed by others goes on with them, unless it ends the body. -/
theorem map_isSome_runStatements_cons (env : Environment) (call : String → Exec Unit) (locals : Locals)
    (statement : Statement) (later : List Statement) :
    Option.isSome <$> runStatements env call locals (statement :: later) = (do
      match ← runStatement env call locals statement with
      | some after => Option.isSome <$> runStatements env call after later
      | none => return false) := by
  rw [runStatements, map_bind]
  refine bind_congr fun after => ?_
  cases after <;> rfl

/-- Of the local variables of a block nothing is left after it. -/
theorem runStatement_block (env : Environment) (call : String → Exec Unit) (locals : Locals) (body : List Statement)
    (span : Span) : runStatement env call locals (.block body span) = (do
      let goesOn ← Option.isSome <$> runStatements env call locals body
      return if goesOn then some locals else none) := by
  rw [runStatement, bind_map_left]
  refine bind_congr fun after => ?_
  cases after <;> rfl

/-- Throwing ends in a fault, so nothing follows it. -/
theorem raise_bind (env : Environment) (locals : Locals) (e : Expression) {α : Type}
    (next next' : Option Locals → Exec α) : (raise env locals e >>= next) = (raise env locals e >>= next') := by
  unfold raise
  split
  · rfl
  · rw [bind_assoc, bind_assoc]
    refine bind_congr fun value => ?_
    cases value <;> rfl
  · rfl

/-- Bodies that differ in unused initialisers run alike among local variables that agree apart from names that are not
referred to. -/
theorem run_differInUnused {body body' : List Statement} (differ : DifferInUnused body body')
    (agree : AgreeApart env off locals locals') (avoid : Avoid off (referencesIn body)) (call : String → Exec Unit) :
    Option.isSome <$> runStatements env call locals body = Option.isSome <$> runStatements env call locals' body' := by
  induction differ generalizing off locals locals' with
  | nil => rfl
  | @same statement later later' notBlock _ ih =>
    rw [referencesIn, avoid_append] at avoid
    rw [map_isSome_runStatements_cons, map_isSome_runStatements_cons]
    cases statement with
    | block body span => exact absurd rfl (notBlock body span)
    | empty =>
      simp only [runStatement, pure_bind]
      exact ih agree avoid.2
    | «return» span => rfl
    | declare type name value =>
      simp only [runStatement, pure_bind]
      exact ih (agree.cons name.name avoid.1) avoid.2
    | throw value span =>
      rw [runStatement, runStatement, agree.raise_eq avoid.1]
      exact raise_bind env locals' value _ _
    | expression value =>
      simp only [runStatement, agree.runExpression_eq avoid.1, bind_assoc, pure_bind]
      exact bind_congr fun _ => ih agree avoid.2
  | @block inner inner' later later' span _ _ ihInner ihLater =>
    rw [referencesIn, avoid_append] at avoid
    rw [map_isSome_runStatements_cons, map_isSome_runStatements_cons, runStatement_block, runStatement_block,
      ihInner agree avoid.1, bind_assoc, bind_assoc]
    refine bind_congr fun goesOn => ?_
    cases goesOn with
    | false => rfl
    | true => exact ihLater agree avoid.2
  | @unused type name later later' value value' notUsed _ ih =>
    rw [referencesIn, avoid_append] at avoid
    rw [map_isSome_runStatements_cons, map_isSome_runStatements_cons]
    simp only [runStatement, pure_bind]
    refine ih (agree.cons_off name.name value value') fun other member => ?_
    obtain rfl | member := List.mem_cons.mp member
    · exact notUsed
    · exact avoid.2 other member

/-! ### Classes -/

variable {c c' : ClassDeclaration}

theorem plainBody?_related (differs : c.DiffersInUnused c') (name : String) :
    Option.Rel (fun body body' => DifferInUnused body.body body'.body) (c.plainBody? name) (c'.plainBody? name) := by
  have found := differs.methods.find? (fun m => m.name.name == name && m.parameters.isEmpty)
    (fun m => m.name.name == name && m.parameters.isEmpty)
    fun m m' related => by rw [related.name, related.parameters]
  unfold ClassDeclaration.plainBody?
  generalize c.methods.find? _ = m, c'.methods.find? _ = m' at found ⊢
  cases found with
  | none => exact .none
  | some related => exact related.bodies

/-- Calls run the same in classes that differ in unused initialisers. -/
theorem call_differsInUnused (differs : c.DiffersInUnused c') (env : Environment) (room : Nat) (name : String) :
    call c' env room name = call c env room name := by
  induction room generalizing name with
  | zero => rfl
  | succ room ih =>
    have inner : call c' env room = call c env room := funext ih
    have bodies := plainBody?_related differs name
    rw [call_succ, call_succ, inner]
    generalize c.plainBody? name = body, c'.plainBody? name = body' at bodies ⊢
    cases bodies with
    | none => rfl
    | some differ =>
      have runs := run_differInUnused differ (fun _ _ => rfl : AgreeApart env [] [] []) nofun (call c env room)
      simpa only [bind_map_left] using congrArg (fun run => run >>= fun _ => (pure () : Exec Unit)) runs.symm

/-- Classes that differ in unused initialisers are configured alike. -/
theorem configure_differsInUnused (differs : c.DiffersInUnused c') (properties : Properties) :
    Direct.configure c' properties = Direct.configure c properties := by
  have names : c'.methods.map (·.name.name) = c.methods.map (·.name.name) := by
    have related := differs.methods
    generalize c.methods = methods, c'.methods = methods' at related ⊢
    induction related with
    | nil => rfl
    | cons first _ ih => rw [List.map_cons, List.map_cons, first.name, ih]
  unfold Direct.configure
  simp only [differs.fields, names, call_differsInUnused differs]

end Direct

end RouteDepot.RouteClass
