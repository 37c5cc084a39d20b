import RouteDepot.Proofs.Printing.Units
import RouteDepot.Proofs.Shallow.Weighing
import RouteDepot.Proofs.Spelling.Accounts

/-! # Trees within the limits

Whatever statements and blocks a parser yields are within the limits of links and levels, also where it recovers from
the faults of others: a statement begins a new count of links, and a block opens one of the levels that are left. So a
source unit that tokens form is within the limits.
-/

namespace RouteDepot.RouteClass

namespace Parser

variable {α β : Type} {c : Cursor} {means : α → Prop}

/-- From a cursor, nothing but values with a given property is yielded. -/
def Yields (p : Parser α) (c : Cursor) (means : α → Prop) : Prop :=
  ∀ a after, p.run.run c = (.ok a, after) → means a

namespace Yields

/-! ### Rules -/

theorem pure {a : α} (holds : means a) : Yields (pure a) c means := by
  intro b after ran
  obtain rfl := Except.ok.inj (Prod.mk.inj ran).1
  exact holds

theorem bind {first : Parser β} {next : β → Parser α} {meant : β → Prop} (yields : Yields first c meant)
    (later : ∀ b after, meant b → Yields (next b) after means) : Yields (first >>= next) c means := by
  intro a after ran
  rw [ExceptT.run_bind_state] at ran
  rcases result : first.run.run c with ⟨_ | b, middle⟩
  · rw [result] at ran
    cases (Prod.mk.inj ran).1
  · rw [result] at ran
    exact later b middle (yields b middle result) a after ran

/-- What comes first does not matter. -/
theorem after {first : Parser β} {next : β → Parser α} (later : ∀ b after, Yields (next b) after means) :
    Yields (first >>= next) c means := by
  have yields : Yields first c fun _ => True := fun _ _ _ => trivial
  exact yields.bind fun b after _ => later b after

theorem failAt {span : Span} {fault : SyntaxFault} : Yields (Parser.failAt span fault) c means := nofun

theorem fail {fault : SyntaxFault} : Yields (fail fault) c means := nofun

theorem fail_bind {fault : SyntaxFault} {next : β → Parser α} : Yields (Parser.fail fault >>= next) c means := nofun

theorem failExpected_bind {what : String} {next : β → Parser α} : Yields (failExpected what >>= next) c means := nofun

theorem get {next : Cursor → Parser α} (later : Yields (next c) c means) :
    Yields (MonadState.get >>= next) c means :=
  fun a after ran => later a after ((ExceptT.run_bind_state _ _ _).symm.trans ran)

/-- A new count of links begins within the limit. -/
theorem resetLinks {next : Unit → Parser α}
    (later : ∀ after : Cursor, after.links ≤ linkLimit → Yields (next ()) after means) :
    Yields (resetLinks >>= next) c means :=
  fun a after ran =>
    later { c with links := 0 } (Nat.zero_le _) a after ((ExceptT.run_bind_state _ _ _).symm.trans ran)

/-! ### Loops and recovery -/

theorem iterate {step : α → Parser (Option α)} {value : α} (start : means value)
    (yields : ∀ value c, means value → Yields (step value) c fun r => ∀ next ∈ r, means next) :
    Yields (iterate step value) c means := by
  intro a after ran
  change iterateFrom step value c = _ at ran
  fun_induction iterateFrom step value c with
  | case1 => cases (Prod.mk.inj ran).1
  | case2 =>
    obtain rfl := Except.ok.inj (Prod.mk.inj ran).1
    exact start
  | case3 value c next middle stepped _ ih => exact ih (yields value c start _ _ stepped next rfl) ran
  | case4 value c next middle stepped _ =>
    obtain rfl := Except.ok.inj (Prod.mk.inj ran).1
    exact yields value c start _ _ stepped _ rfl

theorem recover {p : Parser α} {moveOn : Cursor → Cursor} (yields : Yields p c means) :
    Yields (recover p moveOn) c fun r => ∀ a ∈ r, means a := by
  intro r after ran
  rcases result : p.run.run c with ⟨fault | a, middle⟩
  · rw [recover_run_error result] at ran
    obtain rfl := Except.ok.inj (Prod.mk.inj ran).1
    exact nofun
  · rw [recover_run result] at ran
    obtain rfl := Except.ok.inj (Prod.mk.inj ran).1
    intro b same
    obtain rfl := Option.some.inj same
    exact yields a middle result

/-- A loop that collects items, and recovers from the faults of others. -/
theorem recover_append {p : Parser α} {moveOn : Cursor → Cursor} {done : List α} (before : ∀ a ∈ done, means a)
    (yields : Yields p c means) :
    Yields (do return some (done ++ (← Parser.recover p moveOn).toList)) c fun r =>
      ∀ next ∈ r, ∀ a ∈ next, means a := by
  refine Yields.bind yields.recover fun r after holds => .pure ?_
  intro next same a member
  obtain rfl := Option.some.inj same
  obtain member | member := List.mem_append.mp member
  · exact before a member
  · exact holds a (Option.mem_toList.mp member)

end Yields

theorem Weighs.yields {p : Parser α} {meant : α → Nat → Prop} (weighs : Weighs p meant) (within : c.links ≤ linkLimit)
    (implies : ∀ a n, n ≤ linkLimit → meant a n → means a) : Yields p c means := by
  intro a after ran
  obtain ⟨withinAfter, n, counted, holds⟩ := weighs c within a after ran
  exact implies a n (by omega) holds

/-! ### Statements -/

/-- Statements with a count of links that open a number of levels at most. -/
abbrev MeasuredStatement (room : Nat) (s : Statement) (n : Nat) : Prop := s.mostLinks = n ∧ s.depth ≤ room

/-- Statements within the limits, with a number of levels at most. -/
abbrev Bounded (room : Nat) (s : Statement) : Prop := s.depth ≤ room ∧ s.mostLinks ≤ linkLimit

theorem Bounded.all {room : Nat} {body : List Statement} (bounded : ∀ s ∈ body, Bounded room s) :
    Statement.depthAll body ≤ room ∧ Statement.mostLinksAll body ≤ linkLimit := by
  induction body with
  | nil => exact ⟨Nat.zero_le _, Nat.zero_le _⟩
  | cons s later ih =>
    obtain ⟨⟨depth, links⟩, rest⟩ := List.forall_mem_cons.mp bounded
    obtain ⟨depths, most⟩ := ih rest
    exact ⟨Nat.max_le.mpr ⟨depth, depths⟩, Nat.max_le.mpr ⟨links, most⟩⟩

section Nested

variable {nested : Parser Expression} {nestedBlock : Parser Block} {room : Nat}
  (weighs : Weighs nested (Measured room))

theorem typeName_weighs : Weighs typeName fun _ n => n = 0 := by
  apply dottedName_weighs.bind
  rintro name _ rfl
  apply Weighs.sees
  rintro (_ | _)
  · simp only [Bool.false_eq_true, ↓reduceIte]
    apply Weighs.accept
    · exact .expect fun _ => .pure rfl
    · exact .pure rfl
  · exact nofun

include weighs

theorem initialValue_weighs : Weighs (initialValue nested) fun value n =>
    (value.map Expression.links).getD 0 = n ∧ (value.map Expression.depth).getD 0 ≤ room := by
  apply Weighs.accept
  · simp only [↓reduceIte]
    apply weighs.bind
    intro e n measured
    exact .pure measured
  · exact .pure ⟨rfl, Nat.zero_le _⟩

theorem initialValue_yields (within : c.links ≤ linkLimit) :
    Yields (initialValue nested) c fun value => ∀ e ∈ value, e.depth ≤ room ∧ e.links ≤ linkLimit := by
  refine (initialValue_weighs weighs).yields within fun value n few measured e same => ?_
  obtain rfl := same
  obtain ⟨rfl, shallow⟩ := measured
  exact ⟨shallow, few⟩

theorem localDeclaration_weighs : Weighs (localDeclaration nested) (MeasuredStatement room) := by
  have declaration : Weighs (do
      let type ← typeName
      let name ← ident
      let value ← initialValue nested
      let _ ← expect (.mark .semicolon) "';'"
      return Statement.declare type name value) (MeasuredStatement room) := by
    apply typeName_weighs.bind
    rintro type _ rfl
    apply Weighs.ident
    intro name
    apply (initialValue_weighs weighs).bind
    rintro value n ⟨rfl, shallow⟩
    exact .expect fun _ => .pure ⟨(Nat.zero_add _).symm, shallow⟩
  exact .accept declaration declaration

/-- An expression and the semicolon behind it. -/
theorem throughSemicolon_weighs {f : Expression → Span → Statement}
    (same : ∀ e span, (f e span).mostLinks = e.links ∧ (f e span).depth = e.depth) :
    Weighs (do
      let value ← nested
      let semicolon ← expect (.mark .semicolon) "';'"
      return f value semicolon) (MeasuredStatement room) := by
  apply weighs.bind
  rintro value n ⟨rfl, shallow⟩
  refine .expect fun span => .pure ⟨(same value span).1, ?_⟩
  rwa [(same value span).2]

theorem statement_yields (yields : ∀ c, Yields nestedBlock c fun b => b.depth ≤ room ∧ b.mostLinks ≤ linkLimit) :
    Yields (statement nested nestedBlock) c (Bounded room) := by
  have bounded (s : Statement) (n : Nat) (few : n ≤ linkLimit) (measured : MeasuredStatement room s n) :
      Bounded room s := ⟨measured.2, measured.1 ▸ few⟩
  apply Yields.resetLinks
  intro c within
  apply Yields.get
  split
  · exact .after fun _ _ => .pure ⟨Nat.zero_le _, Nat.zero_le _⟩
  · exact Yields.bind (yields c) fun inner after holds => .pure holds
  · have returns : Weighs (do if ← accept (.mark .semicolon) then return .return c.here else fail .returnValue)
        (MeasuredStatement room) := .accept (.pure ⟨rfl, Nat.zero_le _⟩) .fail
    exact .get ((Weighs.skip returns).yields within bounded)
  · have throws := throughSemicolon_weighs weighs
      (f := fun value semicolon => .throw value ⟨c.here.start, semicolon.stop⟩) fun _ _ => ⟨rfl, rfl⟩
    exact .get ((Weighs.skip throws).yields within bounded)
  · apply Yields.get
    split
    · exact (localDeclaration_weighs weighs).yields within bounded
    · exact (throughSemicolon_weighs weighs (f := fun value _ => .expression value) fun _ _ => ⟨rfl, rfl⟩).yields within
        bounded

theorem braced_yields (yields : ∀ c, Yields nestedBlock c fun b => b.depth ≤ room ∧ b.mostLinks ≤ linkLimit) :
    Yields (braced nested nestedBlock) c fun b => b.depth ≤ room + 1 ∧ b.mostLinks ≤ linkLimit := by
  apply Yields.after
  intro opening c
  have yieldsBody : Yields (iterate (bodyStatement nested nestedBlock) []) c fun body => ∀ s ∈ body, Bounded room s := by
    refine .iterate nofun ?_
    intro done c before
    apply Yields.after
    rintro (_ | _) c
    · exact .recover_append before (statement_yields weighs yields)
    · exact .pure nofun
  refine yieldsBody.bind fun body after bounded => ?_
  obtain ⟨depth, links⟩ := Bounded.all bounded
  exact .after fun _ _ => .pure ⟨Nat.succ_le_succ depth, links⟩

end Nested

theorem block_yields (room : Nat) (c : Cursor) :
    Yields (block room) c fun b => b.depth ≤ room ∧ b.mostLinks ≤ linkLimit := by
  induction room generalizing c with
  | zero => exact .fail
  | succ room ih => exact braced_yields (expression_weighs room) ih

/-! ### Declarations -/

theorem body_yields : Yields (block nestingLimit) c Block.WithinLimits := block_yields nestingLimit c

theorem typedMember_yields (modifiers : Modifiers) (result : Option TypeName) :
    Yields (typedMember modifiers result) c Member.WithinLimits := by
  apply Yields.after
  intro name c
  apply Yields.after
  rintro (_ | _) c
  · simp only [Bool.false_eq_true, ↓reduceIte]
    split
    · exact .failAt
    · apply Yields.resetLinks
      intro c within
      refine Yields.bind (initialValue_yields (expression_weighs nestingLimit) within) fun value after holds => ?_
      exact .after fun _ _ => .pure holds
  · apply Yields.after
    intro parameters c
    apply Yields.after
    intro throws c
    apply Yields.after
    rintro (_ | _) c
    · simp only [Bool.false_eq_true, ↓reduceIte, bind_map_left]
      refine Yields.bind body_yields fun body after within => .pure fun b same => ?_
      obtain rfl := Option.some.inj same
      exact within
    · exact .pure nofun

theorem member_yields (className : String) : Yields (member className) c Member.WithinLimits := by
  apply Yields.after
  intro modifiers c
  have others (c : Cursor) : Yields (member.fieldOrMethod modifiers) c Member.WithinLimits := by
    rw [fieldOrMethod_eq]
    exact .after fun result c => typedMember_yields modifiers result
  apply Yields.get
  split
  · exact .fail
  · exact .fail
  · exact .fail
  · split
    · apply Yields.after
      intro name c
      apply Yields.after
      intro parameters c
      apply Yields.after
      intro throws c
      exact Yields.bind body_yields fun body after within => .pure within
    · exact others c
  · exact others c

theorem bodyMember_yields (className : String) (done : List Member) (before : ∀ m ∈ done, m.WithinLimits) :
    Yields (bodyMember className done) c fun r => ∀ next ∈ r, ∀ m ∈ next, m.WithinLimits := by
  apply Yields.after
  rintro (_ | _) c
  · apply Yields.after
    rintro (_ | _) c
    · exact .recover_append before (member_yields className)
    · refine .pure fun next same => ?_
      obtain rfl := Option.some.inj same
      exact before
  · exact .pure nofun

theorem classDeclaration_yields : Yields classDeclaration c fun d => ∀ m ∈ d.members, m.WithinLimits := by
  have body (modifiers : Modifiers) (name : Ident) (parent : Option DottedName) (after : Cursor) : Yields (do
      let interfaces ← namesAfter .implementsKw
      let _ ← expect (.mark .braceOpen) "'\x7b'"
      let members ← iterate (bodyMember name.name) []
      let closing ← expect (.mark .braceClose) "'\x7d'"
      return ({ modifiers, name, parent, interfaces, members, span := ⟨c.here.start, closing.stop⟩ } : ClassDeclaration))
      after fun d => ∀ m ∈ d.members, m.WithinLimits := by
    apply Yields.after
    intro interfaces c
    apply Yields.after
    intro _ c
    have members : Yields (iterate (bodyMember name.name) []) c fun list => ∀ m ∈ list, m.WithinLimits :=
      .iterate (by simp) fun done _ before => bodyMember_yields name.name done before
    exact members.bind fun list after within => .after fun _ _ => .pure within
  apply Yields.get
  apply Yields.after
  intro modifiers after
  apply Yields.get
  split
  · apply Yields.after
    intro _ after
    apply Yields.after
    intro name after
    apply Yields.after
    rintro (_ | _) after
    · exact body modifiers name none after
    · exact .after fun parent after => body modifiers name parent after
  · exact .fail_bind
  · exact .fail_bind
  · exact .failExpected_bind

theorem moreClasses_yields (done : List ClassDeclaration) (before : ∀ d ∈ done, ∀ m ∈ d.members, m.WithinLimits) :
    Yields (moreClasses done) c fun r => ∀ next ∈ r, ∀ d ∈ next, ∀ m ∈ d.members, m.WithinLimits := by
  apply Yields.get
  split
  · exact .pure nofun
  · apply Yields.after
    rintro (_ | _) c
    · exact .recover_append before classDeclaration_yields
    · refine .pure fun next same => ?_
      obtain rfl := Option.some.inj same
      exact before

theorem sourceUnit_yields : Yields sourceUnit c SourceUnit.WithinLimits := by
  apply Yields.after
  intro package c
  apply Yields.after
  intro imports c
  have classes : Yields (iterate moreClasses []) c fun list => ∀ d ∈ list, ∀ m ∈ d.members, m.WithinLimits :=
    .iterate (by simp) fun done _ before => moreClasses_yields done before
  exact classes.bind fun list after within => .pure within

end Parser

/-- Tokens form units within the limits only. -/
theorem SourceUnit.withinLimits_of_ofTokens {tokens : List Token} {stop : Span} {u : SourceUnit}
    (formed : ofTokens tokens stop = .ok u) : u.WithinLimits := by
  rw [ofTokens] at formed
  split at formed
  · next unit after ran =>
    split at formed
    · obtain rfl := Except.ok.inj formed
      exact Parser.sourceUnit_yields unit after ran
    · cases formed
  · cases formed

end RouteDepot.RouteClass
