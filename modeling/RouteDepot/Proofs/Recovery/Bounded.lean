import RouteDepot.Proofs.Recovery.Levels
import RouteDepot.Proofs.Recovery.Units

/-! # Every parse ends

Whatever the tokens are, every loop of a parse moves past at least one of them in each iteration that it goes on from,
so it ends without being stopped. The parse ends at the end of the tokens, with a unit or with as many faults as there
are tokens at most. The counters that it keeps, of open levels and of open parentheses, never run out of balance.
-/

namespace RouteDepot.RouteClass

variable {α : Type}

namespace Parser

/-! ### Loops that end by themselves -/

/-- What comes of repeating a step until it yields none or throws, however many tokens are ahead in between. -/
inductive Loops (step : α → Parser (Option α)) : α → Cursor → Except (Finding SyntaxFault) α × Cursor → Prop
  | throws {value c fault after} (ran : (step value).run.run c = (.error fault, after)) :
    Loops step value c (.error fault, after)
  | ends {value c after} (ran : (step value).run.run c = (.ok none, after)) : Loops step value c (.ok value, after)
  | goesOn {value c next middle result} (ran : (step value).run.run c = (.ok (some next), middle))
    (later : Loops step next middle result) : Loops step value c result

/-- A loop that ends by itself. -/
structure Progresses (step : α → Parser (Option α)) : Prop where
  /-- An iteration that the loop goes on from has moved past at least one token. -/
  consumes : ∀ value c next after, (step value).run.run c = (.ok (some next), after) →
    ∃ past recorded, c.Moves past recorded after ∧ past ≠ []
  /-- So the loop is never stopped for not having moved. -/
  returns : ∀ value c, Loops step value c ((iterate step value).run.run c)

/-- A loop that ends by itself and throws nothing. -/
structure Recovers (step : α → Parser (Option α)) : Prop extends Progresses step where
  /-- An iteration records a fault rather than throw it, and no more of them than it moves past tokens. -/
  catches : ∀ value c, ∃ r after past recorded, (step value).run.run c = (.ok r, after) ∧
    c.Moves past recorded after ∧ recorded.length ≤ past.length

section Loops

variable {step : α → Parser (Option α)}

theorem Progresses.of_consumes (consumes : ∀ value c next after, (step value).run.run c = (.ok (some next), after) →
    ∃ past recorded, c.Moves past recorded after ∧ past ≠ []) : Progresses step where
  consumes
  returns value c := by
    change Loops step value c (iterateFrom step value c)
    fun_induction iterateFrom step value c with
    | case1 _ _ _ _ stepped => exact .throws stepped
    | case2 _ _ _ stepped => exact .ends stepped
    | case3 _ _ _ _ stepped _ ih => exact .goesOn stepped ih
    | case4 value c next after stepped longer =>
      obtain ⟨past, recorded, moves, moved⟩ := consumes value c next after stepped
      exact absurd (moves.shorter moved) longer

theorem Progresses.of_quiet (quiet : ∀ value c, Quiet (step value) c GoesOn) : Progresses step :=
  .of_consumes fun value c next after ran => by
    obtain ⟨past, moves, moved⟩ := quiet value c _ _ ran
    exact ⟨past, [], moves, moved _ rfl (Option.some_ne_none next)⟩

theorem Recovers.of_steady (steady : ∀ value c, Steady (step value) c GoesOn) : Recovers step where
  toProgresses := .of_consumes fun value c next after ran => by
    obtain ⟨_, _, past, recorded, ran', moves, _, moved⟩ := steady value c
    obtain ⟨same, rfl⟩ := Prod.mk.inj (ran.symm.trans ran')
    obtain rfl := Except.ok.inj same
    exact ⟨past, recorded, moves, moved (Option.some_ne_none next)⟩
  catches value c := by
    obtain ⟨r, after, past, recorded, ran, moves, few, _⟩ := steady value c
    exact ⟨r, after, past, recorded, ran, moves, few⟩

/-- A loop that yields a value has come to a step that yields none. -/
theorem Loops.exists_stop {value a : α} {c after : Cursor} (loops : Loops step value c (.ok a, after)) :
    ∃ d, (step a).run.run d = (.ok none, after) := by
  generalize result : (Except.ok a, after) = r at loops
  induction loops with
  | throws => cases result
  | ends ran =>
    cases result
    exact ⟨_, ran⟩
  | goesOn _ _ ih => exact ih result

end Loops

/-! ### The end of the tokens -/

/-- The loop over the classes stops at the end only. -/
theorem ahead_eq_nil_of_moreClasses {done : List ClassDeclaration} {c after : Cursor}
    (ran : (moreClasses done).run.run c = (.ok none, after)) : after.ahead = [] := by
  rw [moreClasses, ExceptT.run_bind_state] at ran
  change (if c.ahead.isEmpty then _ else _ : Parser _).run.run c = _ at ran
  split at ran
  · next ended =>
    obtain ⟨_, rfl⟩ := Prod.mk.inj ran
    exact List.isEmpty_iff.mp ended
  · rw [ExceptT.run_bind_state] at ran
    split at ran
    · next more _ _ =>
      cases more with
      | true => cases (Prod.mk.inj ran).1
      | false =>
        simp only [Bool.false_eq_true, ↓reduceIte, ExceptT.run_bind_state] at ran
        split at ran <;> cases (Prod.mk.inj ran).1
    · cases (Prod.mk.inj ran).1

/-- A whole source is read up to its end, with no more faults on record than there are tokens. -/
theorem sourceUnit_run (c : Cursor) : ∃ u after recorded, sourceUnit.run.run c = (.ok u, after) ∧
    c.Moves c.ahead recorded after ∧ recorded.length ≤ c.ahead.length := by
  obtain ⟨package, c₁, past₁, recorded₁, ran₁, moves₁, few₁, _⟩ := packageName_steady c
  have steadyImports : Steady (iterate moreImports []) c₁ Never := .iterate moreImports_steady
  obtain ⟨imports, c₂, past₂, recorded₂, ran₂, moves₂, few₂, _⟩ := steadyImports
  have steadyClasses : Steady (iterate moreClasses []) c₂ Never := .iterate moreClasses_steady
  obtain ⟨classes, c₃, past₃, recorded₃, ran₃, moves₃, few₃, _⟩ := steadyClasses
  have ran : sourceUnit.run.run c = (.ok ⟨package.join, imports, classes⟩, c₃) := by
    simp only [sourceUnit, ExceptT.run_bind_state, ran₁, ran₂, ran₃]
    rfl
  obtain ⟨_, stopped⟩ := (ran₃ ▸ (Recovers.of_steady moreClasses_steady).returns [] c₂).exists_stop
  have through := (moves₁.trans moves₂).trans moves₃
  have all : past₁ ++ past₂ ++ past₃ = c.ahead := by
    rw [through.ahead, ahead_eq_nil_of_moreClasses stopped, List.append_nil]
  refine ⟨_, c₃, _, ran, all ▸ through, ?_⟩
  rw [← all]
  simp only [List.length_append]
  omega

end Parser

/-! ### Parentheses -/

/-- Skips up to the parenthesis that closes `depth` open ones, with a counter that must not fall below zero: nothing
at all where it would. -/
def skipParensChecked (depth : Nat) : List Token → Option (Option (List Token × Span))
  | [] => some none
  | token :: later =>
    match token.kind with
    | .mark .parenOpen => skipParensChecked (depth + 1) later
    | .mark .parenClose =>
      match depth with
      | 0 => none
      | 1 => some (some (later, token.span))
      | depth + 2 => skipParensChecked (depth + 1) later
    | _ => skipParensChecked depth later

theorem skipParensChecked_eq {depth : Nat} (opened : 0 < depth) (tokens : List Token) :
    skipParensChecked depth tokens = some (skipParens? depth tokens) := by
  fun_induction skipParens? depth tokens with
  | case1 => rfl
  | case2 depth token later opens ih =>
    simp only [skipParensChecked, opens]
    exact ih (Nat.succ_pos depth)
  | case3 depth token later closes last =>
    obtain rfl : depth = 1 := by omega
    simp only [skipParensChecked, closes]
  | case4 depth token later closes further ih =>
    obtain ⟨rest, rfl⟩ := Nat.exists_eq_add_of_le' (Nat.not_le.mp further)
    simp only [skipParensChecked, closes]
    exact ih (Nat.succ_pos rest)
  | case5 depth token later notOpen notClose ih =>
    simp only [skipParensChecked]
    exact ih opened

/-- The counter of the arguments behind an at-sign name begins at their opening parenthesis. -/
theorem skipParensChecked_ahead {c : Cursor} (head : c.next? = some (.mark .parenOpen)) :
    skipParensChecked 0 c.ahead = some (skipParens? 0 c.ahead) := by
  obtain ⟨span, later, ahead, _⟩ := tokens_eq_cons (Parser.kinds_eq_of_next head)
  rw [ahead]
  exact skipParensChecked_eq Nat.one_pos later

/-! ### The whole parse -/

/-- How the parse of a source goes, whatever its tokens are. -/
structure SourceUnit.ParsesBoundedly (tokens : List Token) (stop : Span) : Prop where
  imports : Parser.Recovers Parser.moreImports
  classes : Parser.Recovers Parser.moreClasses
  members : ∀ className, Parser.Recovers (Parser.bodyMember className)
  statements : ∀ room, Parser.Recovers (Parser.bodyStatement (Parser.expression room) (Parser.block room))
  /-- The loops inside a declaration or an expression end by themselves as well. -/
  modifiers : Parser.Progresses Parser.moreModifiers
  names : Parser.Progresses Parser.furtherPart ∧ Parser.Progresses (Parser.furtherItem Parser.dottedName)
  parameters : Parser.Progresses (Parser.furtherItem Parser.parameter)
  expressions : ∀ room, Parser.Progresses (Parser.furtherItem (Parser.expression room)) ∧
    (Parser.Progresses (Parser.chainLink (Parser.expression room))) ∧
    (Parser.Progresses (Parser.sumTerm (Parser.expression room)))
  /-- The position is behind the last token in the end, and no further. -/
  position : ∃ u after recorded, Parser.sourceUnit.run.run { ahead := tokens, stop } = (.ok u, after) ∧
    Cursor.Moves { ahead := tokens, stop } tokens recorded after
  /-- With any number of levels open, an expression leaves the counter of the levels as it was, by a value and by a
  fault, and does what it does without the counter. -/
  levels_expression : ∀ (beyond : Leveled Expression) (count : Nat), count ≤ Parser.nestingLimit →
    Leveled.DoesSame count (Leveled.expression beyond (Parser.nestingLimit + 1))
      (Parser.expression (Parser.nestingLimit - count))
  levels_block : ∀ (beyond : Leveled Expression) (beyond' : Leveled Block) (count : Nat), count ≤ Parser.nestingLimit →
    Leveled.DoesSame count (Leveled.block beyond beyond' (Parser.nestingLimit + 1))
      (Parser.block (Parser.nestingLimit - count))
  /-- Skipping the arguments of an at-sign name never takes the counter of open parentheses below zero. -/
  parentheses : ∀ c : Cursor, c.next? = some (.mark .parenOpen) →
    skipParensChecked 0 c.ahead = some (skipParens? 0 c.ahead)
  /-- There is a unit, or else there are faults, and no more of them than tokens. -/
  result : (∃ u, ofTokens tokens stop = .ok u) ∨
    ∃ faults, ofTokens tokens stop = .error faults ∧ 1 ≤ faults.length ∧ faults.length ≤ tokens.length

theorem SourceUnit.parsesBoundedly (tokens : List Token) (stop : Span) : ParsesBoundedly tokens stop where
  imports := .of_steady Parser.moreImports_steady
  classes := .of_steady Parser.moreClasses_steady
  members className := .of_steady (Parser.bodyMember_steady className)
  statements room := .of_steady (Parser.bodyStatement_steady (Parser.expression_quiet room) (Parser.block_thrifty room))
  modifiers := .of_quiet Parser.moreModifiers_quiet
  names := ⟨.of_quiet Parser.furtherPart_quiet, .of_quiet (Parser.furtherItem_quiet fun _ => Parser.dottedName_quiet)⟩
  parameters := .of_quiet (Parser.furtherItem_quiet fun _ => Parser.parameter_quiet)
  expressions room := ⟨.of_quiet (Parser.furtherItem_quiet (Parser.expression_quiet room)),
    .of_quiet (Parser.chainLink_quiet (Parser.expression_quiet room)),
    .of_quiet (Parser.sumTerm_quiet (Parser.expression_quiet room))⟩
  position := by
    obtain ⟨u, after, recorded, ran, moves, _⟩ := Parser.sourceUnit_run { ahead := tokens, stop }
    exact ⟨u, after, recorded, ran, moves⟩
  levels_expression beyond _ within := Leveled.expression_same beyond within (by omega)
  levels_block beyond beyond' _ within := Leveled.block_same beyond beyond' within (by omega)
  parentheses _ head := skipParensChecked_ahead head
  result := by
    obtain ⟨u, after, recorded, ran, moves, few⟩ := Parser.sourceUnit_run { ahead := tokens, stop }
    obtain rfl : after.faults = recorded := moves.faults
    have formed : ofTokens tokens stop = if after.faults.isEmpty then .ok u else .error after.faults := by
      rw [ofTokens, ran]
    by_cases clean : after.faults.isEmpty
    · exact .inl ⟨u, by rw [formed, if_pos clean]⟩
    · refine .inr ⟨after.faults, by rw [formed, if_neg clean], ?_, few⟩
      exact List.length_pos_iff.mpr (mt List.isEmpty_iff.mpr clean)

end RouteDepot.RouteClass
