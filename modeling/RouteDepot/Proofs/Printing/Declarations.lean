import RouteDepot.Proofs.Printing.Statements

/-! # Reading declarations

Modifiers, parameters and the members of a class. A member is told from its first two tokens behind the modifiers: a
constructor begins with the name of its class and a parenthesis, and no printed type is followed by one.
-/

namespace RouteDepot.RouteClass

/-- What a declaration can begin with. -/
def TokenKind.beginsDeclaration : TokenKind → Bool
  | ident _ | mark .atSign => true
  | keyword word =>
    word ∈ [.publicKw, .protectedKw, .privateKw, .staticKw, .finalKw, .abstractKw, .voidKw, .classKw]
  | _ => false

theorem TokenKind.ne_of_beginsDeclaration {kind other : TokenKind} (begins : kind.beginsDeclaration)
    (differs : other.beginsDeclaration = false) : kind ≠ other := by
  rintro rfl
  rw [differs] at begins
  cases begins

namespace Modifiers

theorem beginsDeclaration_of_mem_words {m : Modifiers} {word : Keyword} (member : word ∈ m.words) :
    (TokenKind.keyword word).beginsDeclaration := by
  simp only [words, List.mem_append, List.mem_ite_nil_right, List.mem_singleton] at member
  rcases member with ((((⟨_, rfl⟩ | ⟨_, rfl⟩) | ⟨_, rfl⟩) | ⟨_, rfl⟩) | ⟨_, rfl⟩) | ⟨_, rfl⟩ <;> rfl

/-- A declaration behind modifiers begins like a declaration. -/
theorem print_append_eq_cons (m : Modifiers) {kind : TokenKind} (later : List TokenKind)
    (begins : kind.beginsDeclaration) :
    ∃ first others, m.print ++ kind :: later = first :: others ∧ first.beginsDeclaration := by
  rw [print, List.append_assoc]
  rcases words : m.words with _ | ⟨word, _⟩
  · rcases m.annotations with _ | ⟨name, _⟩
    · exact ⟨kind, later, rfl, begins⟩
    · exact ⟨_, _, rfl, rfl⟩
  · exact ⟨_, _, rfl, beginsDeclaration_of_mem_words (m := m) (by rw [words]; exact List.mem_cons_self)⟩

end Modifiers

namespace Parser

variable {counted : Bool}

/-! ### Modifiers -/

/-- One more word or at-sign name of modifiers, if one follows. -/
def moreModifiers (m : Modifiers) : Parser (Option Modifiers) := do
  match (← get).next? with
  | some (.mark .atSign) => return some { m with annotations := m.annotations ++ [← atName] }
  | some (.keyword k) =>
    match withWord? m k with
    | some more =>
      skip
      return some more
    | none => return none
  | _ => return none

theorem modifiers_eq : modifiers = iterate moreModifiers {} := rfl

/-- Tokens that do not go on with modifiers but with what they stand in front of. -/
def EndsModifiers (rest : List TokenKind) : Prop :=
  rest.head? = some (.keyword .classKw) ∨ rest.head? = some (.keyword .voidKw) ∨
    ∃ name, rest.head? = some (.ident name)

theorem EndsModifiers.avoids {rest : List TokenKind} (ends : EndsModifiers rest) (signs : List Mark) :
    Avoids signs rest := by
  rintro sign _ begins
  rcases ends with same | same | ⟨_, same⟩ <;> rw [begins] at same <;> cases same

theorem moreModifiers_reads_word {m more : Modifiers} {word : Keyword} (adds : withWord? m word = some more) :
    Reads counted (moreModifiers m) [.keyword word] 0 Anything (· = some more) := by
  apply Passes.next
  intro c head
  simp only [head, adds]
  apply Passes.skip
  exact .pure rfl

theorem atName_reads {name : DottedName} (named : name.WellFormed) :
    Reads counted atName (.mark .atSign :: name.print) 0 (Avoids [.dot, .parenOpen]) (·.erase = name.erase) := by
  have readsName : Reads counted dottedName name.print 0 (Avoids [.dot, .parenOpen]) (·.erase = name.erase) :=
    (dottedName_reads named).mono (fun _ ends => .of_avoids (ends.of_subset (by simp))) (fun _ => id)
  apply Passes.expect
  intro atSign
  apply readsName.bind_done
  intro read same
  rw [skipArguments, bind_assoc]
  exact .sees_false (fun rest ends => ends .parenOpen (by simp)) (.pure same)

theorem moreModifiers_reads_atName (m : Modifiers) {name : DottedName} (named : name.WellFormed) :
    Reads counted (moreModifiers m) (.mark .atSign :: name.print) 0 (Avoids [.dot, .parenOpen])
      (fun r => ∃ read, r = some { m with annotations := m.annotations ++ [read] } ∧ read.erase = name.erase) := by
  apply Passes.next
  intro c head
  rw [head]
  apply (atName_reads named).bind_done
  intro read same
  exact .pure ⟨read, rfl, same⟩

theorem moreModifiers_stops (m : Modifiers) : Reads counted (moreModifiers m) [] 0 EndsModifiers (· = none) := by
  apply Passes.get
  intro c rest facing ends
  rw [Cursor.next?_eq, facing, List.nil_append]
  rcases ends with begins | begins | ⟨_, begins⟩ <;> rw [begins] <;> exact .pure rfl

theorem foldlM_words (m : Modifiers) : m.words.foldlM withWord? {} = some { m with annotations := [] } := by
  rcases m with ⟨_ | _, _ | _, _ | _, _ | _, _ | _, _ | _, _⟩ <;> rfl

theorem modifiers_passes_words (m : Modifiers) :
    Passes counted modifiers (m.words.flatMap fun word => [.keyword word]) 0 (Avoids [.dot, .parenOpen])
      (iterateFrom moreModifiers) (· = { m with annotations := [] }) := by
  -- The invariant of the loop: the words to come turn what is read into the modifiers.
  let left (later : List Keyword) (a : Modifiers) : Prop :=
    later.foldlM withWord? a = some { m with annotations := [] }
  rw [modifiers_eq]
  have start : Passes counted (iterate moreModifiers {}) [] 0 (Avoids [.dot, .parenOpen]) (iterateFrom moreModifiers)
      (left m.words) := Passes.iterate.mono (fun _ _ => trivial) fun _ same => same ▸ foldlM_words m
  have finished : Passes counted (iterate moreModifiers {}) ([] ++ m.words.flatMap fun word => [.keyword word]) (0 + 0)
      (Avoids [.dot, .parenOpen]) (iterateFrom moreModifiers) (left []) := by
    refine start.steps (fun _ => 0) left ?_ (fun _ => List.cons_ne_nil _ _) (fun _ _ => by simp [Avoids]) (by simp)
    intro word later a ahead
    simp only [left, List.foldlM_cons] at ahead
    obtain ⟨more, adds, ahead⟩ := Option.bind_eq_some_iff.mp ahead
    exact (moreModifiers_reads_word adds).anywhere.mono (fun _ => id) fun _ same => ⟨more, same, ahead⟩
  exact finished.mono (fun _ => id) fun _ => Option.some.inj

/-- Modifiers are read word by word and then name by name. -/
theorem modifiers_reads {m : Modifiers} (wellFormed : m.WellFormed) :
    Reads counted modifiers m.print 0 EndsModifiers (·.erase = m.erase) := by
  -- Now the words are read, and the names to come complete the annotations.
  let left (later : List DottedName) (a : Modifiers) : Prop :=
    { a with annotations := a.annotations.map DottedName.erase ++ later.map DottedName.erase } = m.erase ∧
      ∀ name ∈ later, name.WellFormed
  have start : Passes counted modifiers (m.words.flatMap fun word => [.keyword word]) 0 (Avoids [.dot, .parenOpen])
      (iterateFrom moreModifiers) (left m.annotations) :=
    (modifiers_passes_words m).mono (fun _ => id) fun _ same => same ▸ ⟨rfl, wellFormed⟩
  rw [Modifiers.print, List.map_eq_flatMap]
  have finished : Passes counted modifiers ((m.words.flatMap fun word => [.keyword word]) ++
      m.annotations.flatMap fun name => .mark .atSign :: name.print) (0 + 0)
      (Avoids [.dot, .parenOpen]) (iterateFrom moreModifiers) (left []) := by
    refine start.steps (fun _ => 0) left ?_ (fun _ => List.cons_ne_nil _ _) (fun _ _ => by simp [Avoids]) (by simp)
    rintro name later a ⟨ahead, named⟩
    refine (moreModifiers_reads_atName a (named name List.mem_cons_self)).mono (fun _ => id) ?_
    rintro _ ⟨read, rfl, same⟩
    refine ⟨_, rfl, ?_, fun other member => named other (List.mem_cons_of_mem _ member)⟩
    simpa [same] using ahead
  refine (finished.stop (fun a _ => moreModifiers_stops a) (fun _ ends => ends.avoids _)).mono (fun _ => id) ?_
  rintro a ⟨ahead, _⟩
  rwa [List.map_nil, List.append_nil] at ahead

/-! ### Parameters and names -/

theorem parameter_reads {p : Parameter} (wellFormed : p.WellFormed) :
    Reads counted parameter p.print 0 Anything (·.erase = p.erase) := by
  rw [Parameter.print]
  refine .accept_false ?_ ?_
  · intro rest _
    obtain ⟨first, later, printed⟩ := p.type.print_eq_cons wellFormed
    simp [printed]
  · refine (typeName_reads wellFormed).bind ?_ (fun _ _ => by simp [Avoids])
    intro type sameType
    apply Passes.ident
    intro name sameName
    apply Passes.pure
    simp only [Parameter.erase, Ident.erase, sameType, sameName]

theorem parameters_reads {list : List Parameter} (wellFormed : ∀ p ∈ list, p.WellFormed) :
    Reads counted parameters (printArguments (list.map Parameter.print)) 0 Anything
      (·.map Parameter.erase = list.map Parameter.erase) := by
  have opens : ∀ p ∈ list, ∀ rest, Avoids [.parenClose] (p.print ++ rest) := by
    intro p member rest
    obtain ⟨first, later, printed⟩ := p.type.print_eq_cons (wellFormed p member)
    simp [Avoids, Parameter.print, printed]
  have readsParameter : ∀ p ∈ list, Reads counted parameter p.print 0 Anything (·.erase = p.erase) :=
    fun p member => parameter_reads (wellFormed p member)
  rw [parameters_eq]
  refine (enclosed_reads Anything (fun _ => 0) (fun p read => read.erase = p.erase) readsParameter
    (fun _ _ _ => trivial) opens (by simp)).mono (fun _ => id) ?_
  intro read same
  exact map_eq_of_forall₂ same

/-- Tokens that begin with what ends the head of a declaration. -/
def EndsHead (rest : List TokenKind) : Prop :=
  rest.head? = some (.mark .braceOpen) ∨ rest.head? = some (.mark .semicolon)

theorem EndsHead.avoids {rest : List TokenKind} (ends : EndsHead rest) : Avoids [.dot, .comma] rest := by
  rcases ends with begins | begins <;> simp [Avoids, begins]

theorem namesAfter_reads (word : Keyword) {names : List DottedName} (wellFormed : ∀ name ∈ names, name.WellFormed) :
    Reads counted (namesAfter word) (printNames word names) 0 EndsHead
      (·.map DottedName.erase = names.map DottedName.erase) := by
  rw [printNames]
  split
  · next none =>
    rw [List.isEmpty_iff.mp none]
    refine .accept_false ?_ (.pure rfl)
    intro rest ends
    rcases ends with begins | begins <;> simp [begins]
  · next some =>
    have present : names ≠ [] := fun none => some (List.isEmpty_iff.mpr none)
    have readsName : ∀ n ∈ names, Reads counted dottedName n.print 0 NotDotted (·.erase = n.erase) :=
      fun n member => dottedName_reads (wellFormed n member)
    apply Passes.accept_true
    refine (commaSeparated_reads NotDotted (fun _ => 0) (fun n read => read.erase = n.erase) present readsName
      (fun _ => .of_avoids (by simp [Avoids])) (by simp)).mono ?_ ?_
    · intro rest ends
      exact ⟨.of_avoids (ends.avoids.of_subset (by simp)), ends.avoids.of_subset (by simp)⟩
    · intro read same
      exact map_eq_of_forall₂ same

/-! ### Members -/

theorem block_reads {b : Block} (wellFormed : b.WellFormed) (within : b.WithinLimits) :
    Reads false (block nestingLimit) b.print 0 Anything (·.erase = b.erase) :=
  block_readsBlocksTo nestingLimit b wellFormed within.1 within.2

theorem constructor_reads {className : String} {c : ConstructorDeclaration}
    (wellFormed : (Member.constructor c).WellFormed className) (within : c.body.WithinLimits) :
    Reads false (member className) c.print 0 Anything (·.erase = (Member.constructor c).erase) := by
  obtain ⟨modified, named, typed, wellFormed⟩ := wellFormed
  rw [ConstructorDeclaration.print, List.append_assoc]
  refine (modifiers_reads modified).bind ?_ (fun _ _ => .inr (.inr ⟨_, rfl⟩))
  intro modifiers sameModifiers
  apply Passes.get
  intro c rest facing _
  obtain ⟨_, tail, ahead, later⟩ := tokens_eq_cons facing
  obtain ⟨_, _, rfl, _⟩ := tokens_eq_cons later
  simp only [ahead, named, ↓reduceIte]
  apply Passes.ident
  intro name sameName
  refine (parameters_reads typed).bind ?_ (fun _ _ => trivial)
  intro parameters sameParameters
  -- A constructor is printed without names that it throws.
  change Passes _ _ (printNames .throwsKw [] ++ _) _ _ _ _
  refine (namesAfter_reads .throwsKw (by simp)).bind ?_ (fun _ _ => .inl rfl)
  intro throws _
  apply (block_reads wellFormed within).bind_done
  intro body sameBody
  apply Passes.pure
  simp only [Member.erase, ConstructorDeclaration.erase, Ident.erase, sameModifiers, sameName, sameParameters, sameBody,
    named]

/-- Tokens that begin with a type and something else than a parenthesis. -/
def BeginsTyped (printed : List TokenKind) : Prop :=
  ∃ first second later, printed = first :: second :: later ∧
    (first = .keyword .voidKw ∨ (∃ name, first = .ident name) ∧ second ≠ .mark .parenOpen)

theorem beginsTyped_type {t : TypeName} (wellFormed : t.WellFormed) (name : String) (rest : List TokenKind) :
    BeginsTyped (t.print ++ .ident name :: rest) := by
  rcases t with ⟨⟨_ | ⟨first, _ | ⟨second, later⟩⟩, _⟩, _ | _⟩
  · exact absurd rfl wellFormed
  · exact absurd rfl wellFormed
  all_goals exact ⟨_, _, _, rfl, .inr ⟨⟨_, rfl⟩, by simp⟩⟩

theorem BeginsTyped.endsModifiers {printed : List TokenKind} (begins : BeginsTyped printed) : EndsModifiers printed := by
  obtain ⟨first, second, later, rfl, rfl | ⟨⟨name, rfl⟩, _⟩⟩ := begins
  · exact .inr (.inl rfl)
  · exact .inr (.inr ⟨name, rfl⟩)

theorem BeginsTyped.append {printed : List TokenKind} (begins : BeginsTyped printed) (rest : List TokenKind) :
    BeginsTyped (printed ++ rest) := by
  obtain ⟨first, second, later, rfl, typed⟩ := begins
  exact ⟨first, second, later ++ rest, rfl, typed⟩

/-- A member that begins with a type or with `void` behind its modifiers is taken for a field or a method. -/
theorem member_run_typed {className : String} {m : Modifiers} {c middle : Cursor}
    (ran : modifiers.run.run c = (.ok m, middle)) (begins : BeginsTyped middle.kinds) :
    (member className).run.run c = (member.fieldOrMethod m).run.run middle := by
  obtain ⟨first, second, later, spelled, typed⟩ := begins
  have looks : (MonadState.get : Parser Cursor).run.run middle = (.ok middle, middle) := rfl
  rw [member, ExceptT.run_bind_state, ran]
  dsimp only
  rw [ExceptT.run_bind_state, looks]
  dsimp only
  split
  case h_5 => rfl
  -- The other members begin with a class, or with a name and a parenthesis.
  all_goals
    next ahead =>
      rw [Cursor.kinds, ahead, List.map_cons, List.cons.injEq] at spelled
      rcases typed with void | ⟨⟨_, named⟩, notParen⟩
      · cases spelled.1.trans void
      · first
          | exact absurd (List.cons.inj spelled.2).1.symm notParen
          | cases spelled.1.trans named

/-- What is read of a field or a method behind its modifiers is read of the member. -/
theorem member_reads_typed {className : String} {m : Modifiers} {printed : List TokenKind} {meant : Member → Prop}
    (modified : m.WellFormed) (begins : ∀ rest, BeginsTyped (printed ++ rest))
    (reads : ∀ modifiers, modifiers.erase = m.erase →
      Reads false (member.fieldOrMethod modifiers) printed 0 Anything meant) :
    Reads false (member className) (m.print ++ printed) 0 Anything meant := by
  have readsModifiers : Reads false modifiers m.print 0 EndsModifiers (·.erase = m.erase) := modifiers_reads modified
  intro c rest facing _ _
  obtain ⟨modifiers, middle, ran, behind, same⟩ := readsModifiers c (printed ++ rest)
    (by rw [facing, List.append_assoc]) (begins rest).endsModifiers (by simp [Spares])
  obtain ⟨member, after, ran', behind', holds⟩ := reads modifiers same middle rest behind.kinds trivial (by simp [Spares])
  refine ⟨member, after, ?_, ⟨behind'.kinds, by simp, behind'.faults.trans behind.faults⟩, holds⟩
  rw [member_run_typed ran (behind.kinds ▸ begins rest)]
  exact ran'

/-- The type of a field or the result of a method. -/
def resultType : Parser (Option TypeName) := do
  if ← accept (.keyword .voidKw) then pure none else some <$> typeName

/-- A field or a method behind its modifiers and its type. -/
def typedMember (modifiers : Modifiers) (result : Option TypeName) : Parser Member := do
  let name ← ident
  if ← sees (.mark .parenOpen) then
    let parameters ← parameters
    let throws ← namesAfter .throwsKw
    let body ← if ← accept (.mark .semicolon) then pure none else some <$> block nestingLimit
    return .method { modifiers, result, name, parameters, throws, body }
  else
    match result with
    | none => failAt name.span .voidVariable
    | some type =>
      resetLinks
      let value ← initialValue (expression nestingLimit)
      let _ ← expect (.mark .semicolon) "';'"
      return .field { modifiers, type, name, value }

theorem fieldOrMethod_eq (modifiers : Modifiers) :
    member.fieldOrMethod modifiers = (do typedMember modifiers (← resultType)) := by
  rw [member.fieldOrMethod, resultType, bind_assoc]
  refine congrArg _ (funext fun isVoid => ?_)
  cases isVoid <;> rfl

theorem resultType_reads {result : Option TypeName} (wellFormed : ∀ t ∈ result, t.WellFormed) :
    Reads counted resultType (result.elim [.keyword .voidKw] TypeName.print) 0 (Avoids [.dot, .less, .bracketOpen])
      (·.map TypeName.erase = result.map TypeName.erase) := by
  cases result with
  | none => exact .accept_true (.pure rfl)
  | some type =>
    have typed : type.WellFormed := wellFormed type rfl
    refine .accept_false ?_ ?_
    · intro rest _
      obtain ⟨first, later, printed⟩ := type.print_eq_cons typed
      simp [printed]
    · apply (typeName_reads typed).map
      intro read same
      simp only [Option.map_some, same]

theorem typedMember_reads_field {className : String} {f : FieldDeclaration} {modifiers : Modifiers}
    {result : Option TypeName} (sameModifiers : modifiers.erase = f.modifiers.erase)
    (sameType : result.map TypeName.erase = some f.type.erase)
    (wellFormed : (Member.field f).WellFormed className) (within : (Member.field f).WithinLimits) :
    Reads false (typedMember modifiers result) (.ident f.name.name :: (printValue f.value ++ [.mark .semicolon])) 0
      Anything (·.erase = (Member.field f).erase) := by
  obtain ⟨type, rfl, same⟩ := Option.map_eq_some_iff.mp sameType
  obtain ⟨_, _, wellFormed⟩ := wellFormed
  have few : (f.value.map Expression.links).getD 0 ≤ linkLimit := by
    cases value : f.value with
    | none => exact Nat.zero_le _
    | some e => exact (within e value).2
  have readsValue := (expression_readsTo nestingLimit).initialValue_reads wellFormed
    (fun e present => (within e present).1)
  apply Passes.ident
  intro name sameName
  refine .sees_false ?_ (.resetLinks ?_ few)
  · intro rest _
    cases f.value <;> simp [printValue]
  refine readsValue.bind_rest ?_ (fun _ _ => by simp [Avoids])
  intro value sameValue
  apply Passes.expect
  intro semicolon
  apply Passes.pure
  simp only [Member.erase, FieldDeclaration.erase, Ident.erase, sameModifiers, sameName, same, sameValue]

theorem typedMember_reads_method {className : String} {m : MethodDeclaration} {modifiers : Modifiers}
    {result : Option TypeName} (sameModifiers : modifiers.erase = m.modifiers.erase)
    (sameResult : result.map TypeName.erase = m.result.map TypeName.erase)
    (wellFormed : (Member.method m).WellFormed className) (within : (Member.method m).WithinLimits) :
    Reads false (typedMember modifiers result)
      (.ident m.name.name :: (printArguments (m.parameters.map Parameter.print) ++
        (printNames .throwsKw m.throws ++ m.body.elim [.mark .semicolon] Block.print)))
      0 Anything (·.erase = (Member.method m).erase) := by
  obtain ⟨_, _, typed, thrown, wellFormed⟩ := wellFormed
  apply Passes.ident
  intro name sameName
  apply Passes.sees_true
  simp only [↓reduceIte]
  refine (parameters_reads typed).bind ?_ (fun _ _ => trivial)
  intro parameters sameParameters
  refine (namesAfter_reads .throwsKw thrown).bind ?_ ?_
  · intro throws sameThrows
    cases body : m.body with
    | none =>
      apply Passes.accept_true
      apply Passes.pure
      simp only [Member.erase, MethodDeclaration.erase, Ident.erase, sameModifiers, sameResult, sameName,
        sameParameters, sameThrows, body, Option.map_none]
    | some b =>
      refine .accept_false (fun _ _ => by simp [Block.print, enbrace]) ?_
      simp only [Bool.false_eq_true, ↓reduceIte, bind_map_left]
      apply (block_reads (wellFormed b body) (within b body)).bind_done
      intro read sameBody
      apply Passes.pure
      simp only [Member.erase, MethodDeclaration.erase, Ident.erase, sameModifiers, sameResult, sameName,
        sameParameters, sameThrows, sameBody, body, Option.map_some]
  · intro rest _
    cases m.body with
    | none => exact .inr rfl
    | some body => exact .inl rfl

theorem field_reads {className : String} {f : FieldDeclaration} (wellFormed : (Member.field f).WellFormed className)
    (within : (Member.field f).WithinLimits) :
    Reads false (member className) f.print 0 Anything (·.erase = (Member.field f).erase) := by
  rw [FieldDeclaration.print, List.append_assoc, List.append_assoc]
  refine member_reads_typed wellFormed.1 ?_ ?_
  · intro rest
    rw [List.append_assoc]
    exact beginsTyped_type wellFormed.2.1 _ _
  · intro modifiers sameModifiers
    have typed : ∀ t ∈ some f.type, t.WellFormed := fun t same => Option.some.inj same ▸ wellFormed.2.1
    rw [fieldOrMethod_eq]
    refine (resultType_reads typed).bind ?_ (fun _ _ => by simp [Avoids])
    intro result sameResult
    exact typedMember_reads_field sameModifiers sameResult wellFormed within

theorem method_reads {className : String} {m : MethodDeclaration} (wellFormed : (Member.method m).WellFormed className)
    (within : (Member.method m).WithinLimits) :
    Reads false (member className) m.print 0 Anything (·.erase = (Member.method m).erase) := by
  simp only [MethodDeclaration.print, List.append_assoc, List.cons_append]
  refine member_reads_typed wellFormed.1 ?_ ?_
  · intro rest
    cases result : m.result with
    | none => exact ⟨_, _, _, rfl, .inl rfl⟩
    | some type =>
      simp only [Option.elim_some, List.append_assoc, List.cons_append]
      exact beginsTyped_type (wellFormed.2.1 type result) _ _
  · intro modifiers sameModifiers
    rw [fieldOrMethod_eq]
    refine (resultType_reads wellFormed.2.1).bind ?_ (fun _ _ => by simp [Avoids])
    intro result sameResult
    exact typedMember_reads_method sameModifiers sameResult wellFormed within

end Parser

end RouteDepot.RouteClass
