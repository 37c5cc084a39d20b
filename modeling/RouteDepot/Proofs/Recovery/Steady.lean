import RouteDepot.Proofs.Recovery.Quiet

/-! # Faults and the tokens that they cost

A step that is recovered from throws nothing, moves past at least one token, and records no more faults than it moves
past tokens. What it recovers from may have recorded faults itself, in the blocks inside it, and one more is recorded
when it throws: so whoever throws behind recorded faults has moved past more tokens than there are faults. An opening
brace is the token that pays for the missing closing one.
-/

namespace RouteDepot.RouteClass

variable {α β : Type}

/-! ### Moving on -/

theorem skipMember_suffix (depth : Nat) (tokens : List Token) (last : Span) :
    (skipMember depth tokens last).1 <:+ tokens := by
  fun_induction skipMember depth tokens last with
  | case1 | case5 => exact List.suffix_refl _
  | case2 | case6 => exact List.suffix_cons _ _
  | case3 _ _ _ _ _ _ ih | case4 _ _ _ _ _ ih | case7 _ _ _ _ _ ih | case8 _ _ _ _ _ _ _ ih =>
    exact ih.trans (List.suffix_cons _ _)

/-- Only a closing brace may be left where it is. -/
theorem skipMember_cons_suffix {token : Token} (notClosing : token.kind ≠ .mark .braceClose) (depth : Nat)
    (later : List Token) (last : Span) : (skipMember depth (token :: later) last).1 <:+ later := by
  unfold skipMember
  split
  · split
    · exact List.suffix_refl _
    · exact skipMember_suffix _ _ _
  · exact skipMember_suffix _ _ _
  · next closing => exact absurd closing notClosing
  · exact skipMember_suffix _ _ _

theorem skipDeclaration_suffix (depth : Nat) (tokens : List Token) (last : Span) :
    (skipDeclaration depth tokens last).1 <:+ tokens := by
  fun_induction skipDeclaration depth tokens last with
  | case1 => exact List.suffix_refl _
  | case2 | case5 | case6 => exact List.suffix_cons _ _
  | case3 _ _ _ _ _ _ ih | case4 _ _ _ _ _ ih | case7 _ _ _ _ _ ih | case8 _ _ _ _ _ _ _ ih =>
    exact ih.trans (List.suffix_cons _ _)

theorem skipDeclaration_cons_suffix (depth : Nat) (token : Token) (later : List Token) (last : Span) :
    (skipDeclaration depth (token :: later) last).1 <:+ later := by
  unfold skipDeclaration
  split
  · split
    · exact List.suffix_refl _
    · exact skipDeclaration_suffix _ _ _
  · exact skipDeclaration_suffix _ _ _
  · split
    · exact List.suffix_refl _
    · exact List.suffix_refl _
    · exact skipDeclaration_suffix _ _ _
  · exact skipDeclaration_suffix _ _ _

namespace Cursor

/-- A way to move on from a fault: past at least one token, unless the next one is where it gets stuck. -/
def MovesOn (moveOn : Cursor → Cursor) (stuck : Option TokenKind → Prop) : Prop :=
  ∀ c : Cursor, ∃ past, c.Moves past [] (moveOn c) ∧ (¬ stuck c.next? → past ≠ [])

/-- At the end of the tokens, or at a closing brace. -/
def EndsBody (next : Option TokenKind) : Prop := next = none ∨ next = some (.mark .braceClose)

theorem movesOn_afterMember : MovesOn afterMember EndsBody := by
  intro c
  rcases ahead : c.ahead with _ | ⟨token, later⟩
  · refine ⟨[], ⟨?_, rfl, (List.append_nil _).symm⟩, fun free => absurd (.inl ?_) free⟩
    · rw [afterMember, ahead]; rfl
    · rw [next?, ahead]; rfl
  · by_cases closing : token.kind = .mark .braceClose
    · obtain ⟨past, same⟩ := skipMember_suffix 0 c.ahead c.last
      refine ⟨past, ⟨same.symm, rfl, (List.append_nil _).symm⟩, fun free => absurd (.inr ?_) free⟩
      rw [next?, ahead, ← closing]; rfl
    · obtain ⟨past, same⟩ := skipMember_cons_suffix closing 0 later c.last
      refine ⟨token :: past, ⟨?_, rfl, (List.append_nil _).symm⟩, fun _ => List.cons_ne_nil _ _⟩
      rw [afterMember, ahead, List.cons_append]
      exact congrArg _ same.symm

theorem movesOn_afterDeclaration : MovesOn afterDeclaration (· = none) := by
  intro c
  rcases ahead : c.ahead with _ | ⟨token, later⟩
  · refine ⟨[], ⟨?_, rfl, (List.append_nil _).symm⟩, fun free => absurd ?_ free⟩
    · rw [afterDeclaration, ahead]; rfl
    · rw [next?, ahead]; rfl
  · obtain ⟨past, same⟩ := skipDeclaration_cons_suffix 0 token later c.last
    refine ⟨token :: past, ⟨?_, rfl, (List.append_nil _).symm⟩, fun _ => List.cons_ne_nil _ _⟩
    rw [afterDeclaration, ahead, List.cons_append]
    exact congrArg _ same.symm

end Cursor

namespace Parser

variable {c : Cursor}

/-! ### Thrifty steps -/

/-- From a cursor, a value is yielded behind at least one token and no fewer tokens than faults; a fault is thrown
behind more tokens than faults, unless none was recorded. -/
def Thrifty (p : Parser α) (c : Cursor) : Prop :=
  ∀ r after, p.run.run c = (r, after) → ∃ past recorded, c.Moves past recorded after ∧
    match r with
    | .ok _ => recorded.length ≤ past.length ∧ past ≠ []
    | .error _ => recorded = [] ∨ recorded.length < past.length

/-- From a cursor, nothing is thrown and no more faults are recorded than tokens are moved past; a value of the given
kind is yielded only behind at least one token. -/
def Steady (p : Parser α) (c : Cursor) (consumes : α → Prop) : Prop :=
  ∃ a after past recorded, p.run.run c = (.ok a, after) ∧ c.Moves past recorded after ∧
    recorded.length ≤ past.length ∧ (consumes a → past ≠ [])

theorem Quiet.thrifty {p : Parser α} (quiet : Quiet p c Always) : Thrifty p c := by
  intro r after ran
  obtain ⟨past, moves, moved⟩ := quiet r after ran
  refine ⟨past, [], moves, ?_⟩
  cases r with
  | ok a => exact ⟨Nat.zero_le _, moved a rfl trivial⟩
  | error fault => exact .inl rfl

namespace Thrifty

theorem map {p : Parser α} {f : α → β} (thrifty : Thrifty p c) : Thrifty (do return f (← p)) c := by
  intro r after ran
  rw [ExceptT.run_bind_state] at ran
  rcases result : p.run.run c with ⟨_ | a, middle⟩ <;> rw [result] at ran <;> obtain ⟨rfl, rfl⟩ := Prod.mk.inj ran
  · exact thrifty _ _ result
  · exact thrifty _ _ result

/-- The tokens of a quiet step only add to those of the next one. -/
theorem bind_quiet {first : Parser β} {next : β → Parser α} (quiet : Quiet first c Never)
    (later : ∀ b after, Thrifty (next b) after) : Thrifty (first >>= next) c := by
  intro r after ran
  rw [ExceptT.run_bind_state] at ran
  rcases result : first.run.run c with ⟨_ | b, middle⟩ <;> rw [result] at ran
  · obtain ⟨rfl, rfl⟩ := Prod.mk.inj ran
    obtain ⟨past, moves, _⟩ := quiet _ _ result
    exact ⟨past, [], moves, .inl rfl⟩
  · obtain ⟨past, moves, _⟩ := quiet _ _ result
    obtain ⟨past', recorded, moves', spent⟩ := later b middle r after ran
    refine ⟨past ++ past', recorded, moves.trans moves', ?_⟩
    rw [List.length_append]
    cases r with
    | ok a => exact ⟨Nat.le_add_left_of_le spent.1, List.append_ne_nil_of_right_ne_nil past spent.2⟩
    | error fault => exact spent.imp_right fun fewer => Nat.lt_add_left _ fewer

theorem bind_moved {first : Parser β} {next : β → Parser α} (quiet : Quiet first c Always)
    (later : ∀ b after, Thrifty (next b) after) : Thrifty (first >>= next) c :=
  .bind_quiet (quiet.mono fun _ => False.elim) later

theorem get {next : Cursor → Parser α} (later : Thrifty (next c) c) : Thrifty (MonadState.get >>= next) c :=
  fun r after ran => later r after ((ExceptT.run_bind_state _ _ _).symm.trans ran)

/-- The token that was accepted is enough. -/
theorem accept {kind : TokenKind} {next : Bool → Parser α} (present : ∀ after, Quiet (next true) after Never)
    (absent : Thrifty (next false) c) : Thrifty (accept kind >>= next) c := by
  by_cases head : c.next? = some kind
  · exact Quiet.thrifty (.accept_of_eq head present)
  · rw [Thrifty, run_accept_of_ne head]
    exact absent

theorem resetLinks {next : Unit → Parser α} (later : ∀ after, Thrifty (next ()) after) :
    Thrifty (resetLinks >>= next) c :=
  .bind_quiet (.resetLinks fun _ => .pure id) fun _ after => later after

end Thrifty

/-! ### Steady steps -/

namespace Steady

variable {consumes : α → Prop}

theorem pure {a : α} (stays : ¬ consumes a) : Steady (pure a) c consumes :=
  ⟨a, c, [], [], rfl, .refl, Nat.le_refl _, fun some => absurd some stays⟩

theorem mono {p : Parser α} {consumed : α → Prop} (steady : Steady p c consumed)
    (implies : ∀ a, consumes a → consumed a) : Steady p c consumes := by
  obtain ⟨a, after, past, recorded, ran, moves, few, moved⟩ := steady
  exact ⟨a, after, past, recorded, ran, moves, few, fun some => moved (implies a some)⟩

theorem bind {first : Parser β} {next : β → Parser α} {consumed : β → Prop} (steady : Steady first c consumed)
    (later : ∀ b after, Steady (next b) after fun a => consumes a ∧ ¬ consumed b) :
    Steady (first >>= next) c consumes := by
  obtain ⟨b, middle, past, recorded, ran, moves, few, moved⟩ := steady
  obtain ⟨a, after, past', recorded', ran', moves', few', moved'⟩ := later b middle
  refine ⟨a, after, past ++ past', recorded ++ recorded', ?_, moves.trans moves', ?_, fun some => ?_⟩
  · rw [ExceptT.run_bind_state, ran]
    exact ran'
  · rw [List.length_append, List.length_append]
    exact Nat.add_le_add few few'
  · by_cases early : consumed b
    · exact List.append_ne_nil_of_left_ne_nil (moved early) past'
    · exact List.append_ne_nil_of_right_ne_nil past (moved' ⟨some, early⟩)

theorem get {next : Cursor → Parser α} (later : Steady (next c) c consumes) :
    Steady (MonadState.get >>= next) c consumes := by
  rw [Steady, ExceptT.run_bind_state]
  exact later

theorem sees {kind : TokenKind} {next : Bool → Parser α} (present : c.next? = some kind → Steady (next true) c consumes)
    (absent : c.next? ≠ some kind → Steady (next false) c consumes) : Steady (sees kind >>= next) c consumes := by
  rw [Steady, run_sees]
  by_cases head : c.next? = some kind
  · rw [beq_iff_eq.mpr head]
    exact present head
  · rw [beq_eq_false_iff_ne.mpr head]
    exact absent head

theorem accept {kind : TokenKind} {next : Bool → Parser α} (present : ∀ after, Steady (next true) after Never)
    (absent : c.next? ≠ some kind → Steady (next false) c consumes) : Steady (accept kind >>= next) c consumes := by
  by_cases head : c.next? = some kind
  · obtain ⟨token, moves⟩ := Cursor.Moves.advance head
    obtain ⟨a, after, past, recorded, ran, moves', few, _⟩ := present c.advance
    rw [Steady, run_accept_of_eq head]
    exact ⟨a, after, _, _, ran, moves.trans moves', Nat.le_add_right_of_le few, fun _ => List.cons_ne_nil _ _⟩
  · rw [Steady, run_accept_of_ne head]
    exact absent head

/-- What a step threw was recorded, and the tokens up to the next place to go on are moved past. -/
theorem recover {p : Parser α} {moveOn : Cursor → Cursor} {stuck : Option TokenKind → Prop} (thrifty : Thrifty p c)
    (movesOn : Cursor.MovesOn moveOn stuck) (free : ¬ stuck c.next?) : Steady (recover p moveOn) c Always := by
  rcases ran : p.run.run c with ⟨fault | a, middle⟩ <;> obtain ⟨past, recorded, moves, spent⟩ := thrifty _ _ ran
  · have noted : middle.Moves [] [fault] { middle with faults := middle.faults ++ [fault] } := ⟨rfl, rfl, rfl⟩
    obtain ⟨past', moves', moved⟩ := movesOn { middle with faults := middle.faults ++ [fault] }
    have through := (moves.trans noted).trans moves'
    simp only [List.append_nil] at through
    -- Where no token was moved past before, the fault is met at the token that the step began with.
    have moved : past ++ past' ≠ [] := by
      rcases past with _ | ⟨token, past⟩
      · have same : c.ahead = middle.ahead := moves.ahead
        rw [Cursor.next?, same] at free
        exact moved free
      · exact List.cons_ne_nil _ _
    refine ⟨none, _, _, _, recover_run_error ran, through, ?_, fun _ => moved⟩
    have some := List.length_pos_iff.mpr moved
    simp only [List.length_append, List.length_singleton] at some ⊢
    rcases spent with rfl | fewer
    · exact some
    · omega
  · exact ⟨some a, middle, past, recorded, recover_run ran, moves, spent.1, fun _ => spent.2⟩

/-- A loop that collects items, and recovers from the faults of others. -/
theorem recover_append {p : Parser α} {moveOn : Cursor → Cursor} {stuck : Option TokenKind → Prop} {done : List α}
    (thrifty : Thrifty p c) (movesOn : Cursor.MovesOn moveOn stuck) (free : ¬ stuck c.next?) :
    Steady (do return some (done ++ (← Parser.recover p moveOn).toList)) c GoesOn :=
  (recover thrifty movesOn free).bind fun _ _ => .pure fun both => both.2 trivial

/-! ### Loops -/

section Loops

variable {step : α → Parser (Option α)}

theorem iterate {value : α} (steady : ∀ value c, Steady (step value) c GoesOn) : Steady (iterate step value) c Never := by
  suffices ∃ a after past recorded, iterateFrom step value c = (.ok a, after) ∧ c.Moves past recorded after ∧
      recorded.length ≤ past.length by
    obtain ⟨a, after, past, recorded, ran, moves, few⟩ := this
    exact ⟨a, after, past, recorded, ran, moves, few, False.elim⟩
  fun_induction iterateFrom step value c with
  | case1 value c _ _ stepped =>
    obtain ⟨_, _, _, _, ran, _⟩ := steady value c
    cases stepped.symm.trans ran
  | case2 value c _ stepped =>
    obtain ⟨_, _, past, recorded, ran, moves, few, _⟩ := steady value c
    obtain ⟨_, rfl⟩ := Prod.mk.inj (stepped.symm.trans ran)
    exact ⟨value, _, past, recorded, rfl, moves, few⟩
  | case3 value c next _ stepped _ ih =>
    obtain ⟨_, _, past, recorded, ran, moves, few, _⟩ := steady value c
    obtain ⟨_, rfl⟩ := Prod.mk.inj (stepped.symm.trans ran)
    obtain ⟨a, after, past', recorded', ran', moves', few'⟩ := ih
    refine ⟨a, after, past ++ past', recorded ++ recorded', ran', moves.trans moves', ?_⟩
    rw [List.length_append, List.length_append]
    exact Nat.add_le_add few few'
  | case4 value c next _ stepped _ =>
    obtain ⟨_, _, past, recorded, ran, moves, few, _⟩ := steady value c
    obtain ⟨_, rfl⟩ := Prod.mk.inj (stepped.symm.trans ran)
    exact ⟨next, _, past, recorded, rfl, moves, few⟩

/-- Where the closing brace is missing, the opening one pays for the fault. -/
theorem braces_thrifty {step : List α → Parser (Option (List α))} {f : Span → List α → Span → β}
    (steady : ∀ done c, Steady (step done) c GoesOn) : Thrifty (do
      let opening ← expect (.mark .braceOpen) "'\x7b'"
      let items ← Parser.iterate step []
      let closing ← expect (.mark .braceClose) "'\x7d'"
      return f opening items closing) c := by
  intro r after ran
  rw [ExceptT.run_bind_state] at ran
  rcases opened : (expect (.mark .braceOpen) "'\x7b'").run.run c with ⟨_ | opening, inside⟩ <;> rw [opened] at ran <;>
    obtain ⟨brace, moves, moved⟩ := expect_quiet _ _ _ _ opened
  · obtain ⟨rfl, rfl⟩ := Prod.mk.inj ran
    exact ⟨brace, [], moves, .inl rfl⟩
  have loops : Steady (Parser.iterate step []) inside Never := iterate steady
  obtain ⟨items, atEnd, past, recorded, looped, movesOn, few, _⟩ := loops
  have some : 0 < brace.length := List.length_pos_iff.mpr (moved opening rfl trivial)
  simp only [ExceptT.run_bind_state (Parser.iterate step []), looped] at ran
  have through := moves.trans movesOn
  have ended : Quiet (do
      let closing ← expect (.mark .braceClose) "'\x7d'"
      return f opening items closing) atEnd Never :=
    .expect fun _ _ => .pure id
  obtain ⟨rest, moves', _⟩ := ended r after ran
  refine ⟨_, _, through.trans moves', ?_⟩
  simp only [List.length_append, List.nil_append, List.append_nil]
  cases r with
  | ok _ => exact ⟨by omega, by simp [List.ne_nil_of_length_pos some]⟩
  | error _ => exact .inr (by omega)

end Loops

end Steady

end Parser

end RouteDepot.RouteClass
