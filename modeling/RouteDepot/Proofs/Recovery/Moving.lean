import RouteDepot.Proofs.Printing.Declarations
import RouteDepot.Proofs.Spelling.Accounts

/-! # Moving through the tokens

A parser moves the cursor past some of the tokens ahead and never back, whether it yields a value or throws. Most
parsers are quiet: they record no fault themselves. Such a parser may be known to move past at least one token where
it yields a value of some kind. Each loop over quiet steps goes on only after it has moved, so it ends by itself.
-/

namespace RouteDepot.RouteClass

variable {α β : Type}

/-- One cursor stands behind some of the tokens ahead of the other, with some more faults on record. -/
structure Cursor.Moves (c : Cursor) (past : List Token) (recorded : List (Finding SyntaxFault)) (after : Cursor) :
    Prop where
  ahead : c.ahead = past ++ after.ahead
  stop : after.stop = c.stop
  faults : after.faults = c.faults ++ recorded

namespace Cursor.Moves

variable {c middle after : Cursor} {past past' : List Token} {recorded recorded' : List (Finding SyntaxFault)}

theorem refl : c.Moves [] [] c := ⟨rfl, rfl, (List.append_nil _).symm⟩

theorem trans (first : c.Moves past recorded middle) (second : middle.Moves past' recorded' after) :
    c.Moves (past ++ past') (recorded ++ recorded') after where
  ahead := by rw [first.ahead, second.ahead, List.append_assoc]
  stop := second.stop.trans first.stop
  faults := by rw [second.faults, first.faults, List.append_assoc]

theorem advance_cons {token : Token} {later : List Token} (ahead : c.ahead = token :: later) :
    c.Moves [token] [] c.advance := by
  constructor <;> simp [Cursor.advance, ahead]

theorem advance {kind : TokenKind} (head : c.next? = some kind) : ∃ token, c.Moves [token] [] c.advance := by
  rcases ahead : c.ahead with _ | ⟨token, later⟩
  · simp [Cursor.next?, ahead] at head
  · exact ⟨token, advance_cons ahead⟩

/-- Moving past a token leaves fewer of them. -/
theorem shorter (moves : c.Moves past recorded after) (moved : past ≠ []) : after.ahead.length < c.ahead.length := by
  have := List.length_pos_iff.mpr moved
  rw [moves.ahead, List.length_append]
  omega

end Cursor.Moves

namespace Parser

variable {c : Cursor} {consumes : α → Prop}

/-! ### Looking at the next token -/

theorem run_sees (kind : TokenKind) (next : Bool → Parser α) (c : Cursor) :
    (sees kind >>= next).run.run c = (next (c.next? == some kind)).run.run c := by
  rw [sees, bind_assoc, ExceptT.run_bind_state]
  rfl

theorem run_accept_of_eq {kind : TokenKind} (head : c.next? = some kind) (next : Bool → Parser α) :
    (accept kind >>= next).run.run c = (next true).run.run c.advance := by
  rw [accept, bind_assoc, run_sees, beq_iff_eq.mpr head]
  simp only [↓reduceIte, bind_assoc, pure_bind]
  exact ExceptT.run_bind_state _ _ _

theorem run_accept_of_ne {kind : TokenKind} (differs : c.next? ≠ some kind) (next : Bool → Parser α) :
    (accept kind >>= next).run.run c = (next false).run.run c := by
  rw [accept, bind_assoc, run_sees, beq_eq_false_iff_ne.mpr differs]
  rfl

/-! ### Quiet steps -/

/-- From a cursor, nothing is recorded, and a value of the given kind is yielded only behind another token. -/
def Quiet (p : Parser α) (c : Cursor) (consumes : α → Prop) : Prop :=
  ∀ r after, p.run.run c = (r, after) →
    ∃ past, c.Moves past [] after ∧ ∀ a, r = .ok a → consumes a → past ≠ []

/-- Of every value. -/
abbrev Always (_ : α) : Prop := True

/-- Of no value. -/
abbrev Never (_ : α) : Prop := False

namespace Quiet

/-! ### Rules -/

theorem mono {p : Parser α} {consumed : α → Prop} (quiet : Quiet p c consumed)
    (implies : ∀ a, consumes a → consumed a) : Quiet p c consumes := by
  intro r after ran
  obtain ⟨past, moves, moved⟩ := quiet r after ran
  exact ⟨past, moves, fun a result some => moved a result (implies a some)⟩

theorem pure {a : α} (stays : ¬ consumes a) : Quiet (pure a) c consumes := by
  intro r after ran
  obtain ⟨rfl, rfl⟩ := Prod.mk.inj ran
  refine ⟨[], .refl, fun b same some => ?_⟩
  obtain rfl := Except.ok.inj same
  exact absurd some stays

/-- One step and then another, which has to move where the first one need not. -/
theorem bind {first : Parser β} {next : β → Parser α} {consumed : β → Prop} (quiet : Quiet first c consumed)
    (later : ∀ b after, Quiet (next b) after fun a => consumes a ∧ ¬ consumed b) :
    Quiet (first >>= next) c consumes := by
  intro r after ran
  rw [ExceptT.run_bind_state] at ran
  rcases result : first.run.run c with ⟨_ | b, middle⟩ <;> rw [result] at ran
  · obtain ⟨rfl, rfl⟩ := Prod.mk.inj ran
    obtain ⟨past, moves, _⟩ := quiet _ _ result
    exact ⟨past, moves, nofun⟩
  · obtain ⟨past, moves, moved⟩ := quiet _ _ result
    obtain ⟨past', moves', moved'⟩ := later b middle r after ran
    refine ⟨past ++ past', moves.trans moves', fun a result some => ?_⟩
    by_cases early : consumed b
    · exact List.append_ne_nil_of_left_ne_nil (moved b rfl early) past'
    · exact List.append_ne_nil_of_right_ne_nil past (moved' a result ⟨some, early⟩)

/-- A step that moves, and then any other. -/
theorem bind_moved {first : Parser β} {next : β → Parser α} (quiet : Quiet first c Always)
    (later : ∀ b after, Quiet (next b) after Never) : Quiet (first >>= next) c consumes :=
  quiet.bind fun b after => (later b after).mono fun _ both => both.2 trivial

/-- Any step, and then one that moves. -/
theorem bind_moving {first : Parser β} {next : β → Parser α} (quiet : Quiet first c Never)
    (later : ∀ b after, Quiet (next b) after consumes) : Quiet (first >>= next) c consumes :=
  quiet.bind fun b after => (later b after).mono fun _ both => both.1

theorem map {p : Parser β} {f : β → α} (quiet : Quiet p c fun b => consumes (f b)) : Quiet (f <$> p) c consumes := by
  rw [map_eq_pure_bind]
  exact quiet.bind fun b _ => .pure fun both => both.2 both.1

/-- A step that throws where it stands. -/
theorem throws {p : Parser α} {fault : Finding SyntaxFault} (ran : p.run.run c = (.error fault, c)) :
    Quiet p c consumes := by
  intro r after ran'
  obtain ⟨rfl, rfl⟩ := Prod.mk.inj (ran.symm.trans ran')
  exact ⟨[], .refl, nofun⟩

theorem failAt {span : Span} {fault : SyntaxFault} : Quiet (Parser.failAt span fault) c consumes := throws rfl

theorem fail {fault : SyntaxFault} : Quiet (Parser.fail fault) c consumes := throws rfl

theorem failExpected {what : String} : Quiet (Parser.failExpected what) c consumes := throws rfl

theorem get {next : Cursor → Parser α} (later : Quiet (next c) c consumes) :
    Quiet (MonadState.get >>= next) c consumes :=
  fun r after ran => later r after ((ExceptT.run_bind_state _ _ _).symm.trans ran)

/-! ### Single tokens -/

/-- A step that throws nothing. -/
theorem moves {step : Parser Unit} {middle : Cursor} {past : List Token} {next : Unit → Parser α}
    (ran : step.run.run c = (.ok (), middle)) (moves : c.Moves past [] middle)
    (later : Quiet (next ()) middle fun a => consumes a ∧ past = []) : Quiet (step >>= next) c consumes := by
  intro r after ran'
  rw [ExceptT.run_bind_state, ran] at ran'
  obtain ⟨past', moves', moved'⟩ := later r after ran'
  refine ⟨past ++ past', moves.trans moves', fun a result some => ?_⟩
  by_cases stayed : past = []
  · exact List.append_ne_nil_of_right_ne_nil past (moved' a result ⟨some, stayed⟩)
  · exact List.append_ne_nil_of_left_ne_nil stayed past'

/-- A step that throws nothing and moves past no token. -/
theorem stays {step : Parser Unit} {middle : Cursor} {next : Unit → Parser α}
    (ran : step.run.run c = (.ok (), middle)) (same : c.Moves [] [] middle) (later : Quiet (next ()) middle consumes) :
    Quiet (step >>= next) c consumes :=
  moves ran same (later.mono fun _ both => both.1)

theorem skip {kind : TokenKind} {next : Unit → Parser α} (head : c.next? = some kind)
    (later : ∀ after, Quiet (next ()) after Never) : Quiet (skip >>= next) c consumes := by
  obtain ⟨token, moved⟩ := Cursor.Moves.advance head
  exact .moves rfl moved ((later _).mono fun _ both => absurd both.2 (List.cons_ne_nil _ _))

theorem sees {kind : TokenKind} {next : Bool → Parser α} (present : c.next? = some kind → Quiet (next true) c consumes)
    (absent : Quiet (next false) c consumes) : Quiet (sees kind >>= next) c consumes := by
  rw [Quiet, run_sees]
  by_cases head : c.next? = some kind
  · rw [beq_iff_eq.mpr head]
    exact present head
  · rw [beq_eq_false_iff_ne.mpr head]
    exact absent

theorem accept_of_eq {kind : TokenKind} {next : Bool → Parser α} (head : c.next? = some kind)
    (present : ∀ after, Quiet (next true) after Never) : Quiet (accept kind >>= next) c consumes := by
  have skips : Quiet (Parser.skip >>= fun _ => next true) c consumes := skip head present
  rw [Quiet, run_accept_of_eq head]
  exact fun r after ran => skips r after ((ExceptT.run_bind_state _ _ _).trans ran)

theorem accept {kind : TokenKind} {next : Bool → Parser α} (present : ∀ after, Quiet (next true) after Never)
    (absent : Quiet (next false) c consumes) : Quiet (accept kind >>= next) c consumes := by
  by_cases head : c.next? = some kind
  · exact accept_of_eq head present
  · rw [Quiet, run_accept_of_ne head]
    exact absent

theorem expect {kind : TokenKind} {what : String} {next : Span → Parser α}
    (later : ∀ span after, Quiet (next span) after Never) : Quiet (expect kind what >>= next) c consumes := by
  rw [Parser.expect, bind_assoc]
  apply accept
  · intro after
    simp only [↓reduceIte, bind_assoc, pure_bind]
    exact get (later after.last after)
  · exact throws rfl

theorem ident {next : Ident → Parser α} (later : ∀ i after, Quiet (next i) after Never) :
    Quiet (ident >>= next) c consumes := by
  rw [Parser.ident, bind_assoc]
  apply get
  split
  · next name head =>
    simp only [bind_assoc, pure_bind]
    exact skip head fun after => get (later ⟨name, after.last⟩ after)
  · exact throws rfl

theorem link {next : Unit → Parser α} (later : ∀ after, Quiet (next ()) after consumes) :
    Quiet (link >>= next) c consumes := by
  rw [Parser.link, bind_assoc]
  refine .stays rfl ⟨rfl, rfl, (List.append_nil _).symm⟩ ?_
  rw [bind_assoc]
  apply get
  split
  · exact throws rfl
  · rw [pure_bind]
    exact later _

theorem resetLinks {next : Unit → Parser α} (later : ∀ after, Quiet (next ()) after consumes) :
    Quiet (resetLinks >>= next) c consumes :=
  .stays rfl ⟨rfl, rfl, (List.append_nil _).symm⟩ (later _)

/-! ### Loops -/

section Loops

variable {step : α → Parser (Option α)}

theorem iterate {value : α} (quiet : ∀ value c, Quiet (step value) c Never) : Quiet (iterate step value) c Never := by
  suffices ∀ r after, iterateFrom step value c = (r, after) → ∃ past, c.Moves past [] after from
    fun r after ran => (this r after ran).imp fun past moves => ⟨moves, fun _ _ => False.elim⟩
  intro r after ran
  fun_induction iterateFrom step value c with
  | case1 value c _ _ stepped | case2 value c _ stepped | case4 value c _ _ stepped _ =>
    obtain ⟨_, rfl⟩ := Prod.mk.inj ran
    obtain ⟨past, moves, _⟩ := quiet value c _ _ stepped
    exact ⟨past, moves⟩
  | case3 value c _ _ stepped _ ih =>
    obtain ⟨past, moves, _⟩ := quiet value c _ _ stepped
    obtain ⟨past', moves'⟩ := ih ran
    exact ⟨past ++ past', moves.trans moves'⟩

/-- A loop that goes on from what a step yields. -/
theorem bind_iterate {first : Parser β} {f : β → α} (starts : Quiet first c Always)
    (quiet : ∀ value c, Quiet (step value) c Never) :
    Quiet (first >>= fun b => Parser.iterate step (f b)) c consumes :=
  starts.bind_moved fun _ _ => iterate quiet

end Loops

end Quiet

end Parser

end RouteDepot.RouteClass
