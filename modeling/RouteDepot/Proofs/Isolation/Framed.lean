import RouteDepot.Proofs.Isolation.Taking
import RouteDepot.Proofs.Printing.Units
import RouteDepot.Proofs.Recovery.Units

/-! # A body in its class

What stands in front of the body of a method is read as it is printed, whatever the body comes to: the modifiers, the
type and the signature of the method, the head of its class, and the package and the imports of the source. So the
faults of a source are those of the body, when its only class has only this method.
-/

namespace RouteDepot.RouteClass

/-- The tokens of a method in front of its body. -/
def MethodDeclaration.printHead (m : MethodDeclaration) : List TokenKind :=
  m.modifiers.print ++ (m.result.elim [.keyword .voidKw] TypeName.print ++ .ident m.name.name ::
    (printArguments (m.parameters.map Parameter.print) ++ printNames .throwsKw m.throws))

/-- The tokens of a class in front of its members. -/
def ClassDeclaration.printHead (c : ClassDeclaration) : List TokenKind :=
  c.modifiers.print ++ .keyword .classKw :: .ident c.name.name ::
    ((c.parent.elim [] fun parent => .keyword .extendsKw :: parent.print) ++ printNames .implementsKw c.interfaces)

/-- The tokens of a source in front of its classes. -/
def SourceUnit.printHead (u : SourceUnit) : List TokenKind :=
  (u.package.elim [] fun name => .keyword .packageKw :: name.print ++ [.mark .semicolon]) ++
    u.imports.flatMap printImport

/-- The head of a method can be well formed whatever its body is. -/
structure MethodDeclaration.HeadWellFormed (m : MethodDeclaration) : Prop where
  modified : m.modifiers.WellFormed
  resulting : ∀ t ∈ m.result, t.WellFormed
  typed : ∀ p ∈ m.parameters, p.WellFormed
  thrown : ∀ name ∈ m.throws, name.WellFormed

/-- The head of a class can be well formed whatever its members are. -/
structure ClassDeclaration.HeadWellFormed (c : ClassDeclaration) : Prop where
  modified : c.modifiers.WellFormed
  extended : ∀ name ∈ c.parent, name.WellFormed
  implemented : ∀ name ∈ c.interfaces, name.WellFormed

/-- Tokens that begin like a declaration. -/
def BeginsDeclaration (tokens : List Token) : Prop :=
  ∃ token later, tokens = token :: later ∧ token.kind.beginsDeclaration

namespace BeginsDeclaration

variable {tokens later : List Token}

theorem of_printed {printed : List TokenKind} (begins : ∃ kind others, printed = kind :: others ∧ kind.beginsDeclaration)
    (spelled : tokens.map (·.kind) = printed) : BeginsDeclaration (tokens ++ later) := by
  obtain ⟨kind, others, rfl, begins⟩ := begins
  obtain ⟨span, tail, rfl, _⟩ := tokens_eq_cons spelled
  exact ⟨⟨kind, span⟩, tail ++ later, rfl, begins⟩

theorem ne_nil (begins : BeginsDeclaration tokens) : tokens ≠ [] := by
  obtain ⟨_, _, rfl, _⟩ := begins
  exact List.cons_ne_nil _ _

theorem head_ne (begins : BeginsDeclaration tokens) {kind : TokenKind} (other : kind.beginsDeclaration = false) :
    ((tokens ++ later).map (·.kind)).head? ≠ some kind := by
  obtain ⟨_, _, rfl, begins⟩ := begins
  exact fun same => TokenKind.ne_of_beginsDeclaration begins other (Option.some.inj same)

end BeginsDeclaration

theorem MethodDeclaration.printHead_eq_cons {m : MethodDeclaration} (wellFormed : m.HeadWellFormed) :
    ∃ kind later, m.printHead = kind :: later ∧ kind.beginsDeclaration := by
  rw [printHead]
  cases result : m.result with
  | none => exact m.modifiers.print_append_eq_cons _ rfl
  | some type =>
    obtain ⟨first, later, printed⟩ := type.print_eq_cons (wellFormed.resulting type result)
    rw [Option.elim_some, printed]
    exact m.modifiers.print_append_eq_cons _ rfl

theorem ClassDeclaration.printHead_eq_cons (c : ClassDeclaration) :
    ∃ kind later, c.printHead = kind :: later ∧ kind.beginsDeclaration :=
  c.modifiers.print_append_eq_cons _ rfl

namespace Parser

variable {α : Type} {later inner : List Token} {recorded : List (Finding SyntaxFault)}

/-! ### Methods -/

/-- What is taken by a field or a method behind its modifiers is taken by the member. -/
theorem member_takes_typed {className : String} {m : Modifiers} {modified typed : List Token} {means : Member → Prop}
    (wellFormed : m.WellFormed) (spelled : modified.map (·.kind) = m.print) (begins : BeginsTyped (typed.map (·.kind)))
    (takes : ∀ modifiers, Takes (member.fieldOrMethod modifiers) (typed ++ inner) later recorded means) :
    Takes (member className) (modified ++ (typed ++ inner)) later recorded means := by
  have begins : BeginsTyped ((typed ++ inner ++ later).map (·.kind)) := by
    rw [List.append_assoc, List.map_append]
    exact begins.append _
  have takesModifiers : Takes modifiers modified (typed ++ inner ++ later) [] (·.erase = m.erase) :=
    .of_reads (modifiers_reads wellFormed) (Quiet.moving fun _ => modifiers_quiet) spelled begins.endsModifiers
  intro c ahead
  rw [List.append_assoc] at ahead
  obtain ⟨modifiers, middle, ran, moves, _⟩ := takesModifiers c ahead
  have faces := Takes.ahead_of_moves ahead moves
  obtain ⟨member, after, ran', moves', holds⟩ := takes modifiers middle faces
  refine ⟨member, after, ?_, moves.trans moves', holds⟩
  rw [member_run_typed ran (by rwa [Cursor.kinds, faces])]
  exact ran'

section Methods

variable {m : MethodDeclaration} {opening : Span} {meant : Block → Prop}

/-- A method behind its type is taken as its block is. -/
theorem typedMember_takes (wellFormed : m.HeadWellFormed) (modifiers : Modifiers) (result : Option TypeName)
    {head : List Token}
    (spelled : head.map (·.kind) = .ident m.name.name ::
      (printArguments (m.parameters.map Parameter.print) ++ printNames .throwsKw m.throws))
    (takes : Takes (block nestingLimit) (⟨.mark .braceOpen, opening⟩ :: inner) later recorded meant) :
    Takes (typedMember modifiers result) (head ++ ⟨.mark .braceOpen, opening⟩ :: inner) later recorded
      fun member => ∃ m b, member = .method m ∧ m.body = some b ∧ meant b := by
  obtain ⟨_, signature, rfl, spelledLater⟩ := tokens_eq_cons spelled
  obtain ⟨typed, thrown, rfl, spelledTyped, spelledThrown⟩ := List.map_eq_append_iff.mp spelledLater
  rw [List.cons_append, List.append_assoc]
  apply Takes.ident
  intro name _
  refine Takes.sees true ?_ ?_
  · simp [spelledTyped, printArguments, parenthesize]
  refine .bind_reads (parameters_reads wellFormed.typed) (Quiet.moving fun _ => parameters_quiet) spelledTyped trivial fun _ _ => ?_
  refine .bind_reads (namesAfter_reads .throwsKw wellFormed.thrown) (Quiet.moving fun _ => namesAfter_quiet _) spelledThrown
    (.inl rfl) fun throws _ => ?_
  refine .accept_false (by simp) ?_
  simp only [Bool.false_eq_true, ↓reduceIte, bind_map_left]
  exact takes.bind_done fun b holds => .pure ⟨_, b, rfl, rfl, holds⟩

/-- A method is taken as its block is. -/
theorem member_takes (className : String) (wellFormed : m.HeadWellFormed) {head : List Token}
    (spelled : head.map (·.kind) = m.printHead)
    (takes : Takes (block nestingLimit) (⟨.mark .braceOpen, opening⟩ :: inner) later recorded meant) :
    Takes (member className) (head ++ ⟨.mark .braceOpen, opening⟩ :: inner) later recorded
      fun member => ∃ m b, member = .method m ∧ m.body = some b ∧ meant b := by
  obtain ⟨modified, typed, rfl, spelledModified, spelledTyped⟩ := List.map_eq_append_iff.mp spelled
  have begins : BeginsTyped (typed.map (·.kind)) := by
    rw [spelledTyped]
    cases result : m.result with
    | none => exact ⟨_, _, _, rfl, .inl rfl⟩
    | some type => exact beginsTyped_type (wellFormed.resulting type result) _ _
  rw [List.append_assoc]
  refine member_takes_typed wellFormed.modified spelledModified begins fun modifiers => ?_
  obtain ⟨resulting, signature, rfl, spelledResulting, spelledSignature⟩ := List.map_eq_append_iff.mp spelledTyped
  rw [fieldOrMethod_eq, List.append_assoc]
  exact .bind_reads (resultType_reads wellFormed.resulting) (Quiet.moving fun _ => resultType_quiet) spelledResulting
    (by simp [Avoids, spelledSignature]) fun result _ =>
      typedMember_takes wellFormed modifiers result spelledSignature takes

end Methods

/-! ### Classes -/

/-- A class may extend another one. -/
theorem extends_takes {parent : Option DottedName} {next : Option DottedName → Parser α} {extending front : List Token}
    {means : α → Prop} (wellFormed : ∀ name ∈ parent, name.WellFormed)
    (spelled : extending.map (·.kind) = parent.elim [] fun name => .keyword .extendsKw :: name.print)
    (ends : NotDotted ((front ++ later).map (·.kind)) ∧
      ((front ++ later).map (·.kind)).head? ≠ some (.keyword .extendsKw))
    (rest : ∀ read, Takes (next read) front later recorded means) :
    Takes (do if ← accept (.keyword .extendsKw) then (do next (← some <$> dottedName)) else next none)
      (extending ++ front) later recorded means := by
  cases parent with
  | none =>
    rw [List.map_eq_nil_iff.mp spelled]
    exact .accept_false ends.2 (rest none)
  | some name =>
    obtain ⟨_, named, rfl, spelledName⟩ := tokens_eq_cons spelled
    refine .accept_true ?_
    simp only [↓reduceIte, bind_map_left]
    exact .bind_reads (dottedName_reads (wellFormed name rfl)) (Quiet.moving fun _ => dottedName_quiet) spelledName ends.1
      fun read _ => rest (some read)

/-- A body of one member is taken as the member is. -/
theorem members_takes {className : String} (begins : BeginsDeclaration inner)
    (ends : (later.map (·.kind)).head? = some (.mark .braceClose)) {meant : Member → Prop}
    (takes : Takes (member className) inner later recorded meant) :
    Takes (iterate (bodyMember className) []) inner later recorded fun members => ∃ m, members = [m] ∧ meant m := by
  have first : Takes (bodyMember className []) inner later recorded fun r =>
      ∃ members, r = some members ∧ ∃ m, members = [m] ∧ meant m := by
    refine .bodyEnds_false begins.ne_nil (begins.head_ne rfl) (.accept_false (begins.head_ne rfl) ?_)
    apply takes.recover.bind_done
    rintro _ ⟨m, rfl, holds⟩
    exact .pure ⟨_, rfl, m, rfl, holds⟩
  exact first.iterate_once begins.ne_nil fun members holds => .iterate_done (.bodyEnds_true ends (.pure rfl)) holds

/-- A class of one member is taken as the member is. -/
theorem class_takes {c : ClassDeclaration} (wellFormed : c.HeadWellFormed) {head : List Token}
    (spelled : head.map (·.kind) = c.printHead) (opening closing : Span) (begins : BeginsDeclaration inner)
    {meant : Member → Prop}
    (takes : Takes (member c.name.name) inner (⟨.mark .braceClose, closing⟩ :: later) recorded meant) :
    Takes classDeclaration (head ++ ⟨.mark .braceOpen, opening⟩ :: (inner ++ [⟨.mark .braceClose, closing⟩])) later
      recorded fun c => ∃ m, c.members = [m] ∧ meant m := by
  obtain ⟨modifying, named, rfl, spelledModifying, spelledNamed⟩ := List.map_eq_append_iff.mp spelled
  obtain ⟨_, identified, rfl, spelledIdentified⟩ := tokens_eq_cons spelledNamed
  obtain ⟨_, heritage, rfl, spelledHeritage⟩ := tokens_eq_cons spelledIdentified
  obtain ⟨extending, implementing, rfl, spelledExtending, spelledImplementing⟩ := List.map_eq_append_iff.mp spelledHeritage
  simp only [List.append_assoc, List.cons_append]
  apply Takes.get
  intro start _
  refine .bind_reads (modifiers_reads wellFormed.modified) (Quiet.moving fun _ => modifiers_quiet) spelledModifying (.inl rfl)
    fun _ _ => ?_
  refine .next fun c head => ?_
  rw [head]
  refine .skip (.ident fun name sameName => ?_)
  refine extends_takes wellFormed.extended spelledExtending ?_ fun parent => ?_
  · rw [List.map_append, List.map_append, spelledImplementing, printNames]
    split
    · exact ⟨.of_avoids (by simp [Avoids]), by simp⟩
    · exact ⟨.of_avoids (by simp [Avoids]), by simp⟩
  refine .bind_reads (namesAfter_reads .implementsKw wellFormed.implemented) (Quiet.moving fun _ => namesAfter_quiet _)
    spelledImplementing (.inl rfl) fun interfaces _ => .expect fun opening => ?_
  rw [sameName]
  refine (members_takes begins rfl takes).bind_rest fun members holds => .expect fun closing => ?_
  exact .pure holds

/-! ### Sources -/

/-- A source of one class is taken as the class is. -/
theorem sourceUnit_takes {u : SourceUnit} (packaged : ∀ name ∈ u.package, name.WellFormed)
    (imported : ∀ name ∈ u.imports, name.IsImport) {head : List Token} (spelled : head.map (·.kind) = u.printHead)
    (begins : BeginsDeclaration inner) {meant : ClassDeclaration → Prop}
    (takes : Takes classDeclaration inner [] recorded meant) :
    Takes sourceUnit (head ++ inner) [] recorded fun u => ∃ c, u.classes = [c] ∧ meant c := by
  obtain ⟨packaging, importing, rfl, spelledPackage, spelledImports⟩ := List.map_eq_append_iff.mp spelled
  have first : Takes (moreClasses []) inner [] recorded fun r => ∃ cs, r = some cs ∧ ∃ c, cs = [c] ∧ meant c := by
    refine .get fun c ahead => ?_
    have more : c.ahead.isEmpty = false := by simpa [ahead] using begins.ne_nil
    simp only [more, Bool.false_eq_true, ↓reduceIte]
    refine .accept_false (begins.head_ne rfl) ?_
    apply takes.recover.bind_done
    rintro _ ⟨c, rfl, holds⟩
    exact .pure ⟨_, rfl, c, rfl, holds⟩
  have last (cs : List ClassDeclaration) : Takes (moreClasses cs) [] [] [] (· = none) := by
    refine .get fun c ahead => ?_
    simp only [ahead, List.append_nil, List.isEmpty_nil, ↓reduceIte]
    exact .pure rfl
  rw [List.append_assoc]
  refine .bind_reads (packageName_reads packaged).recover (Steady.moving packageName_steady) spelledPackage ?_
    fun _ _ => ?_
  · rw [List.append_assoc, List.map_append, spelledImports]
    cases u.imports with
    | nil => exact begins.head_ne rfl
    | cons name later => simp [printImport]
  refine .bind_reads (imports_reads imported) (Steady.moving fun _ => .iterate moreImports_steady) spelledImports
    (begins.head_ne rfl) fun _ _ => ?_
  refine Takes.bind_done (first.iterate_once begins.ne_nil fun cs holds => .iterate_done (last cs) holds) fun cs holds => ?_
  exact .pure holds

end Parser

end RouteDepot.RouteClass
