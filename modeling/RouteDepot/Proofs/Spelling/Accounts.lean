import RouteDepot.Proofs.Printing.Reading

/-! # Accounting for tokens

A parser accounts for its tokens when a value that it yields without any fault on record has a given relation to the
tokens that it moved past. A fault that was recorded stays on record, so nothing is claimed of a run that recovered
from one. What one step means is known only when no later step has recorded a fault; therefore it stands in front of
the meaning of what follows, as its condition. A loop keeps an invariant between its value and the tokens that all its
steps moved past.
-/

namespace RouteDepot.RouteClass.Parser

variable {α β : Type} {c : Cursor} {means : α → List TokenKind → Prop}

/-- From a cursor, a value that is yielded without any fault on record means the tokens that were moved past. -/
def Accounts (p : Parser α) (c : Cursor) (means : α → List TokenKind → Prop) : Prop :=
  ∀ a after, p.run.run c = (.ok a, after) → after.faults = [] →
    c.faults = [] ∧ ∃ tokens, c.kinds = tokens ++ after.kinds ∧ means a tokens

/-! ### Rules -/

theorem Accounts.mono {p : Parser α} {meant : α → List TokenKind → Prop} (accounts : Accounts p c meant)
    (implies : ∀ a tokens, meant a tokens → means a tokens) : Accounts p c means := by
  intro a after ran clean
  obtain ⟨cleanBefore, tokens, facing, holds⟩ := accounts a after ran clean
  exact ⟨cleanBefore, tokens, facing, implies a tokens holds⟩

theorem Accounts.pure {a : α} (holds : means a []) : Accounts (pure a) c means := by
  intro b after ran clean
  obtain ⟨same, rfl⟩ := Prod.mk.inj ran
  obtain rfl := Except.ok.inj same
  exact ⟨clean, [], rfl, holds⟩

/-- One step and then another: what the first one means, and where it left the tokens ahead, are conditions of what
both mean. -/
theorem Accounts.bind_facing {first : Parser β} {next : β → Parser α} {meant : β → List TokenKind → Prop}
    (accounts : Accounts first c meant)
    (later : ∀ b tokens after, Accounts (next b) after fun a more =>
      c.kinds = tokens ++ after.kinds → meant b tokens → means a (tokens ++ more)) :
    Accounts (first >>= next) c means := by
  intro a after ran clean
  rw [ExceptT.run_bind_state] at ran
  rcases result : first.run.run c with ⟨_ | b, middle⟩
  · rw [result] at ran
    cases (Prod.mk.inj ran).1
  · rw [result] at ran
    have cleanMiddle : middle.faults = [] := (later b [] middle a after ran clean).1
    obtain ⟨cleanBefore, tokens, facing, holds⟩ := accounts b middle result cleanMiddle
    obtain ⟨_, more, facing', implies⟩ := later b tokens middle a after ran clean
    exact ⟨cleanBefore, tokens ++ more, by rw [facing, facing', List.append_assoc], implies facing holds⟩

theorem Accounts.bind {first : Parser β} {next : β → Parser α} {meant : β → List TokenKind → Prop}
    (accounts : Accounts first c meant)
    (later : ∀ b tokens after, Accounts (next b) after fun a more => meant b tokens → means a (tokens ++ more)) :
    Accounts (first >>= next) c means :=
  accounts.bind_facing fun b tokens after => (later b tokens after).mono fun _ _ implies _ => implies

theorem Accounts.map {p : Parser β} {f : β → α} (accounts : Accounts p c fun b tokens => means (f b) tokens) :
    Accounts (f <$> p) c means := by
  rw [map_eq_pure_bind]
  apply accounts.bind
  intro b tokens after
  apply Accounts.pure
  intro holds
  rwa [List.append_nil]

/-- A step that throws yields no value. -/
theorem Accounts.failAt {span : Span} {fault : SyntaxFault} : Accounts (failAt span fault) c means := nofun

theorem Accounts.fail {fault : SyntaxFault} : Accounts (fail fault) c means := nofun

theorem Accounts.failExpected {what : String} : Accounts (failExpected what) c means := nofun

/-! ### Single tokens -/

theorem Accounts.get {next : Cursor → Parser α} (later : Accounts (next c) c means) :
    Accounts (MonadState.get >>= next) c means := by
  intro a after ran clean
  exact later a after ((ExceptT.run_bind_state _ _ _).symm.trans ran) clean

/-- A step that moves past known tokens and records nothing. -/
theorem Accounts.moves {step : Parser Unit} {moved : Cursor} {tokens : List TokenKind} {next : Unit → Parser α}
    (ran : step.run.run c = (.ok (), moved)) (facing : c.kinds = tokens ++ moved.kinds)
    (faults : moved.faults = c.faults)
    (later : ∀ after, Accounts (next ()) after fun a more => means a (tokens ++ more)) :
    Accounts (step >>= next) c means := by
  intro a after ran' clean
  rw [ExceptT.run_bind_state, ran] at ran'
  obtain ⟨cleanBefore, more, facing', holds⟩ := later moved a after ran' clean
  exact ⟨faults.symm.trans cleanBefore, tokens ++ more, by rw [facing, facing', List.append_assoc], holds⟩

theorem kinds_eq_of_next {kind : TokenKind} (head : c.next? = some kind) : c.kinds = kind :: c.advance.kinds := by
  rw [Cursor.next?_eq] at head
  rw [Cursor.kinds_advance]
  exact (List.cons_head?_tail head).symm

theorem Accounts.skip {kind : TokenKind} {next : Unit → Parser α} (head : c.next? = some kind)
    (later : ∀ after, Accounts (next ()) after fun a more => means a (kind :: more)) :
    Accounts (skip >>= next) c means :=
  .moves rfl (show c.kinds = [kind] ++ _ from kinds_eq_of_next head) c.faults_advance later

theorem Accounts.sees {kind : TokenKind} {next : Bool → Parser α}
    (present : c.next? = some kind → Accounts (next true) c means)
    (absent : Accounts (next false) c means) : Accounts (sees kind >>= next) c means := by
  rw [Parser.sees, bind_assoc]
  apply Accounts.get
  rw [pure_bind]
  by_cases head : c.next? = some kind
  · rw [beq_iff_eq.mpr head]
    exact present head
  · rw [beq_eq_false_iff_ne.mpr head]
    exact absent

theorem Accounts.accept {kind : TokenKind} {next : Bool → Parser α}
    (present : ∀ after, Accounts (next true) after fun a more => means a (kind :: more))
    (absent : Accounts (next false) c means) : Accounts (accept kind >>= next) c means := by
  rw [Parser.accept, bind_assoc]
  apply Accounts.sees
  · intro head
    simp only [↓reduceIte, bind_assoc, pure_bind]
    exact .skip head present
  · simpa using absent

theorem Accounts.expect {kind : TokenKind} {what : String} {next : Span → Parser α}
    (later : ∀ span after, Accounts (next span) after fun a more => means a (kind :: more)) :
    Accounts (expect kind what >>= next) c means := by
  rw [Parser.expect, bind_assoc]
  apply Accounts.accept
  · intro after
    simp only [↓reduceIte, bind_assoc, pure_bind]
    exact .get (later after.last after)
  · intro _ _ failed
    cases failed

theorem Accounts.ident {next : Ident → Parser α}
    (later : ∀ i after, Accounts (next i) after fun a more => means a (.ident i.name :: more)) :
    Accounts (ident >>= next) c means := by
  rw [Parser.ident, bind_assoc]
  apply Accounts.get
  split
  · next name head =>
    simp only [bind_assoc, pure_bind]
    apply Accounts.skip head
    intro after
    exact .get (later ⟨name, after.last⟩ after)
  · intro _ _ failed
    cases failed

theorem Accounts.link {next : Unit → Parser α} (later : ∀ after, Accounts (next ()) after means) :
    Accounts (link >>= next) c means := by
  rw [Parser.link, bind_assoc]
  refine .moves rfl (List.nil_append _).symm rfl ?_
  intro after
  rw [bind_assoc]
  apply Accounts.get
  split
  · exact nofun
  · rw [pure_bind]
    exact later after

theorem Accounts.resetLinks {next : Unit → Parser α} (later : ∀ after, Accounts (next ()) after means) :
    Accounts (resetLinks >>= next) c means :=
  .moves rfl (List.nil_append _).symm rfl later

/-! ### Loops and recovery -/

section Loops

variable {step : α → Parser (Option α)} {inside : α → List TokenKind → Prop}

theorem accounts_iterateFrom
    (accounts : ∀ value done c, Accounts (step value) c fun r more =>
      r.elim (more = []) fun next => inside value done → inside next (done ++ more))
    (value : α) (c : Cursor) {a : α} {after : Cursor} (ran : iterateFrom step value c = (.ok a, after))
    (clean : after.faults = []) (done : List TokenKind) :
    c.faults = [] ∧ ∃ tokens, c.kinds = tokens ++ after.kinds ∧ (inside value done → inside a (done ++ tokens)) := by
  fun_induction iterateFrom step value c generalizing done with
  | case1 => cases (Prod.mk.inj ran).1
  | case2 value c _ stopped =>
    obtain ⟨same, rfl⟩ := Prod.mk.inj ran
    obtain rfl := Except.ok.inj same
    obtain ⟨cleanBefore, tokens, facing, none⟩ := accounts value done c _ _ stopped clean
    obtain rfl : tokens = [] := none
    refine ⟨cleanBefore, [], facing, fun holds => ?_⟩
    rwa [List.append_nil]
  | case3 value c next middle stepped _ ih =>
    have cleanMiddle : middle.faults = [] := (ih ran []).1
    obtain ⟨cleanBefore, tokens, facing, goesOn⟩ := accounts value done c _ _ stepped cleanMiddle
    obtain ⟨_, more, facing', holds⟩ := ih ran (done ++ tokens)
    refine ⟨cleanBefore, tokens ++ more, by rw [facing, facing', List.append_assoc], fun start => ?_⟩
    rw [← List.append_assoc]
    exact holds (goesOn start)
  | case4 value c next middle stepped _ =>
    obtain ⟨same, rfl⟩ := Prod.mk.inj ran
    obtain rfl := Except.ok.inj same
    exact accounts value done c _ _ stepped clean

/-- A loop keeps its invariant: a step goes on with it, or stops and moves past nothing. -/
theorem Accounts.iterate {value : α} (start : inside value [])
    (accounts : ∀ value done c, Accounts (step value) c fun r more =>
      r.elim (more = []) fun next => inside value done → inside next (done ++ more)) :
    Accounts (iterate step value) c inside := by
  intro a after ran clean
  obtain ⟨cleanBefore, tokens, facing, holds⟩ := accounts_iterateFrom accounts value c ran clean []
  exact ⟨cleanBefore, tokens, facing, holds start⟩

/-- A loop that goes on from what a step yields. -/
theorem Accounts.bind_iterate {first : Parser β} {f : β → α} (starts : Accounts first c fun b => inside (f b))
    (accounts : ∀ value done c, Accounts (step value) c fun r more =>
      r.elim (more = []) fun next => inside value done → inside next (done ++ more)) :
    Accounts (first >>= fun b => Parser.iterate step (f b)) c inside := by
  apply starts.bind
  intro b tokens after
  let further (a : α) (more : List TokenKind) : Prop := inside (f b) tokens → inside a (tokens ++ more)
  refine (Accounts.iterate ?start ?goesOn : Accounts _ after further)
  case start =>
    intro holds
    rwa [List.append_nil]
  case goesOn =>
    intro value done c
    apply (accounts value (tokens ++ done) c).mono
    rintro (_ | next) more goesOn
    · exact goesOn
    · intro inner start
      rw [← List.append_assoc]
      exact goesOn (inner start)

/-- A loop that stops at the end of the tokens only gets there: every other step of it moves on. -/
theorem kinds_eq_nil_of_iterateFrom
    (accounts : ∀ value c, Accounts (step value) c fun r more => r.elim (c.kinds = []) fun _ => more ≠ [])
    (value : α) (c : Cursor) {a : α} {after : Cursor} (ran : iterateFrom step value c = (.ok a, after))
    (clean : after.faults = []) : after.kinds = [] := by
  fun_induction iterateFrom step value c with
  | case1 => cases (Prod.mk.inj ran).1
  | case2 value c _ stopped =>
    obtain ⟨_, rfl⟩ := Prod.mk.inj ran
    obtain ⟨_, tokens, facing, ended⟩ := accounts value c _ _ stopped clean
    obtain ended : c.kinds = [] := ended
    exact (List.append_eq_nil_iff.mp (facing.symm.trans ended)).2
  | case3 value c next middle stepped _ ih => exact ih ran
  | case4 value c next middle stepped same =>
    obtain ⟨_, rfl⟩ := Prod.mk.inj ran
    obtain ⟨_, tokens, facing, moved⟩ := accounts value c _ _ stepped clean
    have longer : c.ahead.length = tokens.length + middle.ahead.length := by
      simpa [Cursor.kinds] using congrArg List.length facing
    have some : 0 < tokens.length := List.length_pos_iff.mpr moved
    omega

/-- A loop that keeps its invariant up to the end of the tokens. -/
theorem Accounts.iterate_all {value : α} (start : inside value [])
    (accounts : ∀ value done c, Accounts (step value) c fun r more =>
      r.elim (more = [] ∧ c.kinds = []) fun next => more ≠ [] ∧ (inside value done → inside next (done ++ more))) :
    Accounts (Parser.iterate step value) c fun a tokens => tokens = c.kinds ∧ inside a tokens := by
  intro a after ran clean
  have ended : after.kinds = [] := by
    refine kinds_eq_nil_of_iterateFrom (fun value c => (accounts value [] c).mono ?_) value c ran clean
    rintro (_ | next) more ⟨stopped, ended⟩
    · exact ended
    · exact stopped
  have kept : Accounts (Parser.iterate step value) c inside := by
    refine .iterate start fun value done c => (accounts value done c).mono ?_
    rintro (_ | next) more ⟨stopped, goesOn⟩
    · exact stopped
    · exact goesOn
  obtain ⟨cleanBefore, tokens, facing, holds⟩ := kept a after ran clean
  refine ⟨cleanBefore, tokens, facing, ?_, holds⟩
  rw [facing, ended, List.append_nil]

/-- A loop that collects items, each of which means the tokens that its step moved past. -/
theorem Accounts.collect {step : List α → Parser (Option (List α))} {first : List α}
    {spelledBy : α → List TokenKind → Prop}
    (accounts : ∀ done c, Accounts (step done) c fun r more =>
      r = none ∧ more = [] ∨ ∃ a, r = some (done ++ [a]) ∧ spelledBy a more) :
    Accounts (Parser.iterate step first) c fun all tokens =>
      ∃ items parts, all = first ++ items ∧ List.Forall₂ spelledBy items parts ∧ tokens = parts.flatten := by
  apply Accounts.iterate
  · exact ⟨[], [], (List.append_nil first).symm, .nil, rfl⟩
  intro value done c
  apply (accounts value c).mono
  rintro _ more (⟨rfl, rfl⟩ | ⟨a, rfl, spelled⟩)
  · rfl
  · rintro ⟨items, parts, rfl, related, rfl⟩
    refine ⟨items ++ [a], parts ++ [more], by simp, ?_, by simp⟩
    exact List.rel_append related (.cons spelled .nil)

end Loops

theorem recover_run_error {p : Parser α} {moveOn : Cursor → Cursor} {after : Cursor} {fault : Finding SyntaxFault}
    (ran : p.run.run c = (.error fault, after)) :
    (recover p moveOn).run.run c = (.ok none, moveOn { after with faults := after.faults ++ [fault] }) := by
  simp only [recover, tryCatch, tryCatchThe, MonadExceptOf.tryCatch, ExceptT.tryCatch, Bind.bind, ExceptT.bind,
    ExceptT.mk, ExceptT.run, ExceptT.bindCont, StateT.bind, StateT.run] at ran ⊢
  rw [ran]
  rfl

/-- A step that is recovered from leaves a fault on record, so without one the step yielded its value. -/
theorem Accounts.recover {p : Parser α} {moveOn : Cursor → Cursor} (keeps : ∀ c, (moveOn c).faults = c.faults)
    (accounts : Accounts p c means) :
    Accounts (recover p moveOn) c fun r tokens => ∃ a, r = some a ∧ means a tokens := by
  intro r after ran clean
  rcases result : p.run.run c with ⟨fault | a, middle⟩
  · rw [recover_run_error result] at ran
    obtain ⟨_, rfl⟩ := Prod.mk.inj ran
    rw [keeps] at clean
    simp at clean
  · rw [recover_run result] at ran
    obtain ⟨same, rfl⟩ := Prod.mk.inj ran
    obtain rfl := Except.ok.inj same
    obtain ⟨cleanBefore, tokens, facing, holds⟩ := accounts a middle result clean
    exact ⟨cleanBefore, tokens, facing, a, rfl, holds⟩

theorem Accounts.recover_append {p : Parser α} {moveOn : Cursor → Cursor} {done : List α}
    (keeps : ∀ c, (moveOn c).faults = c.faults) (accounts : Accounts p c means) :
    Accounts (do return some (done ++ (← Parser.recover p moveOn).toList)) c fun r tokens =>
      ∃ a, r = some (done ++ [a]) ∧ means a tokens := by
  apply (accounts.recover keeps).bind
  intro r tokens after
  apply Accounts.pure
  rintro ⟨a, rfl, holds⟩
  exact ⟨a, rfl, by rwa [List.append_nil]⟩

theorem faults_afterMember (c : Cursor) : c.afterMember.faults = c.faults := rfl

theorem faults_afterDeclaration (c : Cursor) : c.afterDeclaration.faults = c.faults := rfl

end RouteDepot.RouteClass.Parser
