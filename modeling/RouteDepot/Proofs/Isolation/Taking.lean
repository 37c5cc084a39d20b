import RouteDepot.Proofs.Recovery.Steady

/-! # Taking given tokens

A parser takes given tokens in front of others when it moves past exactly these and yields a value with a given
meaning, with given faults on record; other than what is read from printed tokens, these tokens are known with their
spans, and a parser that recovers from faults takes tokens as well.
-/

namespace RouteDepot.RouteClass.Parser

variable {α β : Type} {front front' later : List Token} {recorded recorded' : List (Finding SyntaxFault)}
  {means : α → Prop}

/-- From a cursor in front of given tokens, a parser moves past these and records given faults. -/
def Takes (p : Parser α) (front later : List Token) (recorded : List (Finding SyntaxFault)) (means : α → Prop) : Prop :=
  ∀ c, c.ahead = front ++ later → ∃ a after, p.run.run c = (.ok a, after) ∧ c.Moves front recorded after ∧ means a

/-- From every cursor, a parser moves past some tokens and records some faults. -/
def Moving (p : Parser α) : Prop := ∀ c : Cursor, ∃ past recorded, c.Moves past recorded (p.run.run c).2

theorem Quiet.moving {p : Parser α} {consumes : α → Prop} (quiet : ∀ c, Quiet p c consumes) : Moving p := by
  intro c
  obtain ⟨past, moves, _⟩ := quiet c _ _ rfl
  exact ⟨past, [], moves⟩

theorem Steady.moving {p : Parser α} {consumes : α → Prop} (steady : ∀ c, Steady p c consumes) : Moving p := by
  intro c
  obtain ⟨_, _, past, recorded, ran, moves, _⟩ := steady c
  exact ⟨past, recorded, ran ▸ moves⟩

namespace Takes

theorem mono {p : Parser α} {meant : α → Prop} (takes : Takes p front later recorded meant)
    (implies : ∀ a, meant a → means a) : Takes p front later recorded means := by
  intro c ahead
  obtain ⟨a, after, ran, moves, holds⟩ := takes c ahead
  exact ⟨a, after, ran, moves, implies a holds⟩

theorem pure {a : α} (holds : means a) : Takes (pure a) [] later [] means :=
  fun c _ => ⟨a, c, rfl, .refl, holds⟩

/-- What is behind the tokens that were taken is ahead. -/
theorem ahead_of_moves {c after : Cursor} (ahead : c.ahead = front ++ later) (moves : c.Moves front recorded after) :
    after.ahead = later :=
  List.append_cancel_left (moves.ahead.symm.trans ahead)

theorem bind {first : Parser β} {next : β → Parser α} {meant : β → Prop}
    (takes : Takes first front (front' ++ later) recorded meant)
    (rest : ∀ b, meant b → Takes (next b) front' later recorded' means) :
    Takes (first >>= next) (front ++ front') later (recorded ++ recorded') means := by
  intro c ahead
  rw [List.append_assoc] at ahead
  obtain ⟨b, middle, ran, moves, holds⟩ := takes c ahead
  obtain ⟨a, after, ran', moves', holds'⟩ := rest b holds middle (ahead_of_moves ahead moves)
  refine ⟨a, after, ?_, moves.trans moves', holds'⟩
  rw [ExceptT.run_bind_state, ran]
  exact ran'

/-- Taking tokens and then others without a fault. -/
theorem bind_rest {first : Parser β} {next : β → Parser α} {meant : β → Prop}
    (takes : Takes first front (front' ++ later) recorded meant)
    (rest : ∀ b, meant b → Takes (next b) front' later [] means) :
    Takes (first >>= next) (front ++ front') later recorded means :=
  List.append_nil recorded ▸ bind takes rest

/-- Taking tokens and then ending. -/
theorem bind_done {first : Parser β} {next : β → Parser α} {meant : β → Prop}
    (takes : Takes first front later recorded meant) (rest : ∀ b, meant b → Takes (next b) [] later [] means) :
    Takes (first >>= next) front later recorded means :=
  List.append_nil front ▸ bind_rest takes rest

theorem get {next : Cursor → Parser α}
    (rest : ∀ c, c.ahead = front ++ later → Takes (next c) front later recorded means) :
    Takes (MonadState.get >>= next) front later recorded means := by
  intro c ahead
  obtain ⟨a, after, ran, moves, holds⟩ := rest c ahead c ahead
  exact ⟨a, after, (ExceptT.run_bind_state _ _ _).trans ran, moves, holds⟩

/-- What is read from printed tokens is taken, since a moving parser gets to where fewer tokens are ahead only by
moving past the others. -/
theorem of_reads {p : Parser α} {printed : List TokenKind} {follows : List TokenKind → Prop}
    (reads : Reads false p printed 0 follows means) (moving : Moving p) (spelled : front.map (·.kind) = printed)
    (ends : follows (later.map (·.kind))) : Takes p front later [] means := by
  intro c ahead
  have facing : c.kinds = printed ++ later.map (·.kind) := by rw [Cursor.kinds, ahead, List.map_append, spelled]
  obtain ⟨a, after, ran, behind, holds⟩ := reads c _ facing ends (by simp [Spares])
  obtain ⟨past, recorded, moves⟩ := moving c
  rw [ran] at moves
  have sameLength : after.ahead.length = later.length := by
    simpa only [Cursor.kinds, List.length_map] using congrArg List.length behind.kinds
  obtain ⟨rfl, -⟩ := List.append_inj' (moves.ahead.symm.trans ahead) sameLength
  exact ⟨a, after, ran, ⟨moves.ahead, moves.stop, by rw [behind.faults, List.append_nil]⟩, holds⟩

/-- Taking what is read, and then others. -/
theorem bind_reads {first : Parser β} {next : β → Parser α} {printed : List TokenKind}
    {follows : List TokenKind → Prop} {meant : β → Prop} (reads : Reads false first printed 0 follows meant)
    (moving : Moving first) (spelled : front.map (·.kind) = printed) (ends : follows ((front' ++ later).map (·.kind)))
    (rest : ∀ b, meant b → Takes (next b) front' later recorded means) :
    Takes (first >>= next) (front ++ front') later recorded means :=
  bind (of_reads reads moving spelled ends) rest

/-! ### Single tokens -/

theorem skip {token : Token} {next : Unit → Parser α} (rest : Takes (next ()) front later recorded means) :
    Takes (skip >>= next) (token :: front) later recorded means := by
  intro c ahead
  obtain ⟨a, after, ran, moves, holds⟩ := rest c.advance (by rw [Cursor.advance, ahead]; rfl)
  exact ⟨a, after, (ExceptT.run_bind_state _ _ _).trans ran, (Cursor.Moves.advance_cons ahead).trans moves, holds⟩

/-- A parser that looks at its next token. -/
theorem next {token : Token} {next : Cursor → Parser α}
    (rest : ∀ c, c.next? = some token.kind → Takes (next c) (token :: front) later recorded means) :
    Takes (MonadState.get >>= next) (token :: front) later recorded means :=
  get fun c ahead => rest c (by rw [Cursor.next?, ahead]; rfl)

theorem sees {kind : TokenKind} {next : Bool → Parser α} (sight : Bool)
    (ahead : (((front ++ later).map (·.kind)).head? == some kind) = sight)
    (rest : Takes (next sight) front later recorded means) :
    Takes (sees kind >>= next) front later recorded means := by
  rw [Parser.sees, bind_assoc]
  refine get fun c faces => ?_
  rwa [pure_bind, Cursor.next?_eq, Cursor.kinds, faces, ahead]

theorem accept_true {kind : TokenKind} {span : Span} {next : Bool → Parser α}
    (rest : Takes (next true) front later recorded means) :
    Takes (accept kind >>= next) (⟨kind, span⟩ :: front) later recorded means := by
  rw [accept, bind_assoc]
  refine sees true (by simp) ?_
  simp only [↓reduceIte, bind_assoc, pure_bind]
  exact skip rest

theorem accept_false {kind : TokenKind} {next : Bool → Parser α}
    (differs : ((front ++ later).map (·.kind)).head? ≠ some kind)
    (rest : Takes (next false) front later recorded means) :
    Takes (accept kind >>= next) front later recorded means := by
  rw [accept, bind_assoc]
  refine sees false (by simpa using differs) ?_
  simpa using rest

theorem expect {kind : TokenKind} {span : Span} {what : String} {next : Span → Parser α}
    (rest : ∀ span, Takes (next span) front later recorded means) :
    Takes (expect kind what >>= next) (⟨kind, span⟩ :: front) later recorded means := by
  rw [Parser.expect, bind_assoc]
  refine accept_true ?_
  simp only [↓reduceIte, bind_assoc, pure_bind]
  exact get fun c _ => rest c.last

theorem ident {name : String} {span : Span} {next : Ident → Parser α}
    (rest : ∀ i : Ident, i.name = name → Takes (next i) front later recorded means) :
    Takes (ident >>= next) (⟨.ident name, span⟩ :: front) later recorded means := by
  rw [Parser.ident, bind_assoc]
  refine Takes.next fun c head => ?_
  simp only [head, bind_assoc, pure_bind]
  exact skip (get fun c _ => rest ⟨name, c.last⟩ rfl)

theorem bodyEnds_true {next : Bool → Parser α} (closes : (later.map (·.kind)).head? = some (.mark .braceClose))
    (rest : Takes (next true) [] later recorded means) : Takes (bodyEnds >>= next) [] later recorded means := by
  rw [bodyEnds, bind_assoc]
  refine get fun c ahead => ?_
  rw [Cursor.next?_eq, Cursor.kinds, ahead, List.nil_append, closes]
  exact rest

theorem bodyEnds_false {next : Bool → Parser α} (present : front ≠ [])
    (continues : ((front ++ later).map (·.kind)).head? ≠ some (.mark .braceClose))
    (rest : Takes (next false) front later recorded means) : Takes (bodyEnds >>= next) front later recorded means := by
  rw [bodyEnds, bind_assoc]
  refine get fun c ahead => ?_
  rw [Cursor.next?_eq, Cursor.kinds, ahead]
  split
  · next none => simp [present] at none
  · contradiction
  · exact rest

/-! ### Recovery and loops -/

theorem recover {p : Parser α} {moveOn : Cursor → Cursor} (takes : Takes p front later recorded means) :
    Takes (recover p moveOn) front later recorded fun r => ∃ a, r = some a ∧ means a := by
  intro c ahead
  obtain ⟨a, after, ran, moves, holds⟩ := takes c ahead
  exact ⟨some a, after, recover_run ran, moves, a, rfl, holds⟩

section Loops

variable {step : α → Parser (Option α)} {value : α}

/-- A loop takes tokens and then goes on. -/
theorem iterate_more {meant : α → Prop}
    (takes : Takes (step value) front (front' ++ later) recorded fun r => ∃ more, r = some more ∧ meant more)
    (moved : front ≠ []) (rest : ∀ more, meant more → Takes (iterate step more) front' later recorded' means) :
    Takes (iterate step value) (front ++ front') later (recorded ++ recorded') means := by
  intro c ahead
  rw [List.append_assoc] at ahead
  obtain ⟨_, middle, ran, moves, more, rfl, holds⟩ := takes c ahead
  obtain ⟨a, after, ran', moves', holds'⟩ := rest more holds middle (ahead_of_moves ahead moves)
  refine ⟨a, after, ?_, moves.trans moves', holds'⟩
  change iterateFrom step value c = _
  rw [iterateFrom, ran]
  dsimp only
  rw [if_pos (moves.shorter moved)]
  exact ran'

/-- A loop that ends where it is. -/
theorem iterate_done (ends : Takes (step value) [] later [] (· = none)) (holds : means value) :
    Takes (iterate step value) [] later [] means := by
  intro c ahead
  obtain ⟨_, after, ran, moves, rfl⟩ := ends c ahead
  refine ⟨value, after, ?_, moves, holds⟩
  change iterateFrom step value c = _
  rw [iterateFrom, ran]

/-- A loop of one step. -/
theorem iterate_once {meant : α → Prop}
    (takes : Takes (step value) front later recorded fun r => ∃ more, r = some more ∧ meant more)
    (moved : front ≠ []) (rest : ∀ more, meant more → Takes (iterate step more) [] later [] means) :
    Takes (iterate step value) front later recorded means := by
  rw [← List.append_nil front, ← List.append_nil recorded]
  exact iterate_more takes moved rest

end Loops

end Takes

end RouteDepot.RouteClass.Parser
