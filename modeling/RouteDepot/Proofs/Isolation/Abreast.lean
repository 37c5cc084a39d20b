import RouteDepot.Proofs.Spelling.Accounts
import RouteDepot.RouteClass.Parsing.Statement

/-! # Two runs over one statement

Two runs are abreast before a semicolon when the tokens in front of it are the same and none of them is a brace or
another semicolon; what is behind it may differ. A parser that never looks behind the semicolon does the same in both
runs: it yields the same value, or throws the same fault in front of the semicolon. The bytes of the token read last
are the same only once a token was read.
-/

namespace RouteDepot.RouteClass

/-- Neither a semicolon nor a brace. -/
def TokenKind.IsPlain (kind : TokenKind) : Prop := ∀ sign ∈ [Mark.semicolon, .braceOpen, .braceClose], kind ≠ .mark sign

instance : DecidablePred TokenKind.IsPlain := fun kind =>
  inferInstanceAs (Decidable (∀ sign ∈ [Mark.semicolon, .braceOpen, .braceClose], kind ≠ .mark sign))

/-- The tokens of a statement in front of its semicolon. -/
abbrev Plain (tokens : List Token) : Prop := ∀ token ∈ tokens, token.kind.IsPlain

/-- Two runs, as they are to go on behind a semicolon with given bytes. -/
structure Lanes where
  semicolon : Span
  left : Cursor
  right : Cursor

namespace Lanes

variable {l : Lanes} {c d : Cursor}

/-- The tokens up to the semicolon. -/
def through (l : Lanes) (front : List Token) : List Token := front ++ [⟨.mark .semicolon, l.semicolon⟩]

/-- In both runs some tokens are ahead before those of the two lanes, and nothing was recorded. -/
structure Abreast (l : Lanes) (ahead : List Token) (c d : Cursor) : Prop where
  left : c.ahead = ahead ++ l.left.ahead
  right : d.ahead = ahead ++ l.right.ahead
  stops : c.stop = l.left.stop ∧ d.stop = l.right.stop
  faults : c.faults = l.left.faults ∧ d.faults = l.right.faults
  links : c.links = d.links

/-- Somewhere in front of the semicolon. -/
def Before (l : Lanes) (c d : Cursor) : Prop := ∃ front, Plain front ∧ l.Abreast (l.through front) c d

/-- In front of the semicolon, but behind another token. -/
def Inside (l : Lanes) (c d : Cursor) : Prop := l.Before c d ∧ c.last = d.last

/-- Right behind the semicolon. -/
def Past (l : Lanes) (c d : Cursor) : Prop := l.Abreast [] c d ∧ c.last = l.semicolon ∧ d.last = l.semicolon

theorem Before.head (before : l.Before c d) : ∃ token later later', c.ahead = token :: later ∧ d.ahead = token :: later' := by
  obtain ⟨_ | ⟨token, front⟩, _, abreast⟩ := before
  · exact ⟨_, _, _, abreast.left, abreast.right⟩
  · exact ⟨_, _, _, abreast.left, abreast.right⟩

theorem Before.next?_eq (before : l.Before c d) : d.next? = c.next? := by
  obtain ⟨token, later, later', left, right⟩ := before.head
  rw [Cursor.next?, Cursor.next?, left, right]
  rfl

/-- No block begins in front of the semicolon. -/
theorem Before.next?_ne (before : l.Before c d) : c.next? ≠ some (.mark .braceOpen) := by
  obtain ⟨_ | ⟨token, front⟩, plain, abreast⟩ := before <;> rw [Cursor.next?, abreast.left]
  · simp [Lanes.through]
  · exact fun opens => plain token List.mem_cons_self .braceOpen (by simp) (Option.some.inj opens)

theorem Before.here_eq (before : l.Before c d) : d.here = c.here := by
  obtain ⟨token, later, later', left, right⟩ := before.head
  rw [Cursor.here, Cursor.here, left, right]
  rfl

/-- Moving past a token that is not the semicolon. -/
theorem Before.advance (before : l.Before c d) {kind : TokenKind} (head : c.next? = some kind)
    (differs : kind ≠ .mark .semicolon) : l.Inside c.advance d.advance := by
  obtain ⟨_ | ⟨token, front⟩, plain, abreast⟩ := before
  · rw [Cursor.next?, abreast.left] at head
    exact absurd (Option.some.inj head).symm differs
  · have left : c.advance = { c with ahead := l.through front ++ l.left.ahead, last := token.span } := by
      rw [Cursor.advance, abreast.left]; rfl
    have right : d.advance = { d with ahead := l.through front ++ l.right.ahead, last := token.span } := by
      rw [Cursor.advance, abreast.right]; rfl
    rw [left, right]
    exact ⟨⟨front, fun t member => plain t (List.mem_cons_of_mem _ member),
      ⟨rfl, rfl, abreast.stops, abreast.faults, abreast.links⟩⟩, rfl⟩

/-- Moving past the semicolon. -/
theorem Before.advance_semicolon (before : l.Before c d) (head : c.next? = some (.mark .semicolon)) :
    l.Past c.advance d.advance := by
  obtain ⟨_ | ⟨token, front⟩, plain, abreast⟩ := before
  · have left : c.advance = { c with ahead := l.left.ahead, last := l.semicolon } := by
      rw [Cursor.advance, abreast.left]; rfl
    have right : d.advance = { d with ahead := l.right.ahead, last := l.semicolon } := by
      rw [Cursor.advance, abreast.right]; rfl
    rw [left, right]
    exact ⟨⟨rfl, rfl, abreast.stops, abreast.faults, abreast.links⟩, rfl, rfl⟩
  · rw [Cursor.next?, abreast.left] at head
    exact absurd (Option.some.inj head) (plain token List.mem_cons_self .semicolon List.mem_cons_self)

/-- Which of two cursors has fewer tokens ahead is the same in both runs. -/
theorem Before.shorter_iff {c' d' : Cursor} (before : l.Before c d) (before' : l.Before c' d') :
    c'.ahead.length < c.ahead.length ↔ d'.ahead.length < d.ahead.length := by
  obtain ⟨front, _, abreast⟩ := before
  obtain ⟨front', _, abreast'⟩ := before'
  rw [abreast.left, abreast.right, abreast'.left, abreast'.right]
  simp only [List.length_append]
  omega

end Lanes

namespace Parser

variable {α β : Type} {l : Lanes} {c d : Cursor} {place : Cursor → Cursor → Prop}

/-- The same outcome of two runs: a value at a given place, or a fault in front of the semicolon. -/
inductive Agree (l : Lanes) (place : Cursor → Cursor → Prop) :
    Except (Finding SyntaxFault) α × Cursor → Except (Finding SyntaxFault) α × Cursor → Prop
  | ok {a : α} {c d : Cursor} (there : place c d) : Agree l place (.ok a, c) (.ok a, d)
  | error {fault : Finding SyntaxFault} {c d : Cursor} (before : l.Before c d) :
    Agree l place (.error fault, c) (.error fault, d)

/-- Two parsers have the same outcome in two runs. -/
def Alongside (l : Lanes) (place : Cursor → Cursor → Prop) (p q : Parser α) (c d : Cursor) : Prop :=
  Agree l place (p.run.run c) (q.run.run d)

namespace Alongside

/-! ### Rules -/

theorem of_run {p q : Parser α} {r : Except (Finding SyntaxFault) α × Cursor} (alongside : Alongside l place p q c d)
    (ran : p.run.run c = r) : Agree l place r (q.run.run d) :=
  ran ▸ alongside

theorem pure {a : α} (there : place c d) : Alongside l place (pure a) (pure a) c d := .ok there

theorem bind {middle : Cursor → Cursor → Prop} {first first' : Parser β} {next next' : β → Parser α}
    (alongside : Alongside l middle first first' c d)
    (later : ∀ b c d, middle c d → Alongside l place (next b) (next' b) c d) :
    Alongside l place (first >>= next) (first' >>= next') c d := by
  unfold Alongside at alongside ⊢
  rw [ExceptT.run_bind_state, ExceptT.run_bind_state]
  generalize first.run.run c = r, first'.run.run d = s at alongside
  cases alongside with
  | ok there => exact later _ _ _ there
  | error before => exact .error before

theorem get {next next' : Cursor → Parser α} (later : Alongside l place (next c) (next' d) c d) :
    Alongside l place (MonadState.get >>= next) (MonadState.get >>= next') c d := by
  unfold Alongside
  rw [ExceptT.run_bind_state, ExceptT.run_bind_state]
  exact later

/-- Moving to another place and going on there. -/
theorem moves {step step' : Parser Unit} {c' d' : Cursor} {next next' : Unit → Parser α}
    (ran : step.run.run c = (.ok (), c')) (ran' : step'.run.run d = (.ok (), d'))
    (later : Alongside l place (next ()) (next' ()) c' d') :
    Alongside l place (step >>= next) (step' >>= next') c d := by
  unfold Alongside
  rw [ExceptT.run_bind_state, ExceptT.run_bind_state, ran, ran']
  exact later

/-- A step that throws in both runs. -/
theorem throws {first first' : Parser β} {next next' : β → Parser α}
    (alongside : Alongside l (fun _ _ => False) first first' c d) :
    Alongside l place (first >>= next) (first' >>= next') c d :=
  alongside.bind fun _ _ _ => False.elim

theorem failAt {span : Span} {fault : SyntaxFault} (before : l.Before c d) :
    Alongside l place (Parser.failAt span fault : Parser α) (Parser.failAt span fault) c d := .error before

theorem fail {fault : SyntaxFault} (before : l.Before c d) :
    Alongside l place (Parser.fail fault : Parser α) (Parser.fail fault) c d := by
  apply get
  rw [before.here_eq]
  exact failAt before

theorem failExpected {what : String} (before : l.Before c d) :
    Alongside l place (Parser.failExpected what : Parser α) (Parser.failExpected what) c d := by
  apply get
  rw [before.next?_eq]
  exact fail before

/-! ### Single tokens -/

theorem skip {kind : TokenKind} {next next' : Unit → Parser α} (before : l.Before c d) (head : c.next? = some kind)
    (differs : kind ≠ .mark .semicolon)
    (later : ∀ c d, l.Inside c d → Alongside l place (next ()) (next' ()) c d) :
    Alongside l place (Parser.skip >>= next) (Parser.skip >>= next') c d :=
  .moves rfl rfl (later _ _ (before.advance head differs))

theorem sees {kind : TokenKind} {next next' : Bool → Parser α} (before : l.Before c d)
    (present : c.next? = some kind → Alongside l place (next true) (next' true) c d)
    (absent : Alongside l place (next false) (next' false) c d) :
    Alongside l place (Parser.sees kind >>= next) (Parser.sees kind >>= next') c d := by
  rw [Parser.sees, bind_assoc, bind_assoc]
  apply get
  rw [pure_bind, pure_bind, before.next?_eq]
  by_cases head : c.next? = some kind
  · rw [beq_iff_eq.mpr head]
    exact present head
  · rw [beq_eq_false_iff_ne.mpr head]
    exact absent

theorem accept {kind : TokenKind} {next next' : Bool → Parser α} (before : l.Before c d)
    (differs : kind ≠ .mark .semicolon)
    (present : ∀ c d, l.Inside c d → Alongside l place (next true) (next' true) c d)
    (absent : Alongside l place (next false) (next' false) c d) :
    Alongside l place (Parser.accept kind >>= next) (Parser.accept kind >>= next') c d := by
  rw [Parser.accept, bind_assoc, bind_assoc]
  apply sees before
  · intro head
    simp only [↓reduceIte, bind_assoc, pure_bind]
    exact skip before head differs present
  · simpa using absent

theorem expect {kind : TokenKind} {what : String} {next next' : Span → Parser α} (before : l.Before c d)
    (differs : kind ≠ .mark .semicolon)
    (later : ∀ span c d, l.Inside c d → Alongside l place (next span) (next' span) c d) :
    Alongside l place (Parser.expect kind what >>= next) (Parser.expect kind what >>= next') c d := by
  rw [Parser.expect, bind_assoc, bind_assoc]
  apply accept before differs
  · intro c d inside
    simp only [↓reduceIte, bind_assoc, pure_bind]
    apply get
    rw [inside.2]
    exact later _ c d inside
  · exact throws (failExpected before)

theorem accept_semicolon {next next' : Bool → Parser α} (before : l.Before c d)
    (present : ∀ c d, l.Past c d → Alongside l place (next true) (next' true) c d)
    (absent : Alongside l place (next false) (next' false) c d) :
    Alongside l place (Parser.accept (.mark .semicolon) >>= next) (Parser.accept (.mark .semicolon) >>= next') c d := by
  rw [Parser.accept, bind_assoc, bind_assoc]
  apply sees before
  · intro head
    simp only [↓reduceIte, bind_assoc, pure_bind]
    exact .moves rfl rfl (present _ _ (before.advance_semicolon head))
  · simpa using absent

/-- What ends with the semicolon. -/
theorem expect_semicolon {what : String} {next next' : Span → Parser α} (before : l.Before c d)
    (later : ∀ span c d, l.Past c d → Alongside l place (next span) (next' span) c d) :
    Alongside l place (Parser.expect (.mark .semicolon) what >>= next)
      (Parser.expect (.mark .semicolon) what >>= next') c d := by
  rw [Parser.expect, bind_assoc, bind_assoc]
  apply accept_semicolon before
  · intro c d past
    simp only [↓reduceIte, bind_assoc, pure_bind]
    apply get
    rw [past.2.1, past.2.2]
    exact later _ c d past
  · exact throws (failExpected before)

theorem ident {next next' : Ident → Parser α} (before : l.Before c d)
    (later : ∀ i c d, l.Inside c d → Alongside l place (next i) (next' i) c d) :
    Alongside l place (Parser.ident >>= next) (Parser.ident >>= next') c d := by
  rw [Parser.ident, bind_assoc, bind_assoc]
  apply get
  rw [before.next?_eq]
  split
  · next name head =>
    simp only [bind_assoc, pure_bind]
    apply skip before head (by simp)
    intro c d inside
    apply get
    rw [inside.2]
    exact later _ c d inside
  · exact throws (failExpected before)

theorem link {next next' : Unit → Parser α} (inside : l.Inside c d)
    (later : ∀ c d, l.Inside c d → Alongside l place (next ()) (next' ()) c d) :
    Alongside l place (Parser.link >>= next) (Parser.link >>= next') c d := by
  simp only [Parser.link, bind_assoc]
  obtain ⟨⟨front, plain, abreast⟩, last⟩ := inside
  have counted : l.Inside { c with links := c.links + 1 } { d with links := d.links + 1 } :=
    ⟨⟨front, plain, ⟨abreast.left, abreast.right, abreast.stops, abreast.faults,
      congrArg (· + 1) abreast.links⟩⟩, last⟩
  refine .moves rfl rfl (get ?_)
  by_cases many : c.links + 1 > linkLimit
  · have many' : d.links + 1 > linkLimit := abreast.links ▸ many
    rw [if_pos many, if_pos many']
    exact throws (fail counted.1)
  · have many' : ¬ d.links + 1 > linkLimit := abreast.links ▸ many
    rw [if_neg many, if_neg many', pure_bind, pure_bind]
    exact later _ _ counted

/-- A statement begins to count its links, whatever was counted before. -/
theorem resetLinks {next next' : Unit → Parser α} (before : l.Before { c with links := 0 } { d with links := 0 })
    (later : ∀ c d, l.Before c d → Alongside l place (next ()) (next' ()) c d) :
    Alongside l place (Parser.resetLinks >>= next) (Parser.resetLinks >>= next') c d :=
  .moves rfl rfl (later _ _ before)

/-! ### Loops -/

theorem iterate {step : α → Parser (Option α)}
    (steps : ∀ value c d, l.Inside c d → Alongside l l.Inside (step value) (step value) c d) {value : α}
    (inside : l.Inside c d) : Alongside l l.Inside (iterate step value) (iterate step value) c d := by
  change Agree l l.Inside (iterateFrom step value c) (iterateFrom step value d)
  fun_induction Parser.iterateFrom step value c generalizing d with
  | case1 value c _ _ stepped =>
    have agree := (steps value c d inside).of_run stepped
    rw [iterateFrom.eq_def step value d]
    generalize (step value).run.run d = s at agree ⊢
    cases agree with
    | error before => exact .error before
  | case2 value c _ stepped =>
    have agree := (steps value c d inside).of_run stepped
    rw [iterateFrom.eq_def step value d]
    generalize (step value).run.run d = s at agree ⊢
    cases agree with
    | ok there => exact .ok there
  | case3 value c _ _ stepped shorter ih =>
    have agree := (steps value c d inside).of_run stepped
    rw [iterateFrom.eq_def step value d]
    generalize (step value).run.run d = s at agree ⊢
    cases agree with
    | ok there =>
      dsimp only
      rw [if_pos ((inside.1.shorter_iff there.1).mp shorter)]
      exact ih there
  | case4 value c _ _ stepped longer =>
    have agree := (steps value c d inside).of_run stepped
    rw [iterateFrom.eq_def step value d]
    generalize (step value).run.run d = s at agree ⊢
    cases agree with
    | ok there =>
      dsimp only
      rw [if_neg (mt (inside.1.shorter_iff there.1).mpr longer)]
      exact .ok there

/-- A loop that goes on from what a step yields. -/
theorem bind_iterate {first first' : Parser β} {f : β → α} {step : α → Parser (Option α)}
    (starts : Alongside l l.Inside first first' c d)
    (steps : ∀ value c d, l.Inside c d → Alongside l l.Inside (step value) (step value) c d) :
    Alongside l l.Inside (first >>= fun b => Parser.iterate step (f b)) (first' >>= fun b => Parser.iterate step (f b)) c
      d :=
  starts.bind fun _ _ _ inside => iterate steps inside

end Alongside

end Parser

end RouteDepot.RouteClass
