import Mathlib.Algebra.GroupWithZero.Nat
import Mathlib.Data.List.Forall2
import RouteDepot.Proofs.Printing.Printer
import RouteDepot.Proofs.Running
import RouteDepot.RouteClass.Parsing.Cursor

/-! # Reading what is printed

A parser reads printed tokens when it moves past exactly these, whatever spans they have and whatever acceptable
tokens follow, records no fault, and yields a value with a given meaning. A loop is inside its run when what is left
is to go on from a value; reading one more item keeps it there. Links are accounted for only where they are counted,
which is inside one statement.
-/

namespace RouteDepot.RouteClass

/-- The kinds of the tokens ahead. -/
def Cursor.kinds (c : Cursor) : List TokenKind := c.ahead.map (·.kind)

/-- Tokens whose kinds are known, one at a time. -/
theorem tokens_eq_cons {tokens : List Token} {kind : TokenKind} {later : List TokenKind}
    (spelled : tokens.map (·.kind) = kind :: later) :
    ∃ span tail, tokens = ⟨kind, span⟩ :: tail ∧ tail.map (·.kind) = later := by
  obtain ⟨⟨_, span⟩, tail, same, rfl, rfl⟩ := List.map_eq_cons_iff.mp spelled
  exact ⟨span, tail, same, rfl⟩

namespace Cursor

variable {c : Cursor}

theorem next?_eq (c : Cursor) : c.next? = c.kinds.head? := by
  rw [next?, kinds, List.head?_map]

theorem kinds_advance (c : Cursor) : c.advance.kinds = c.kinds.tail := by
  unfold advance kinds
  cases ahead : c.ahead <;> simp [ahead]

theorem links_advance (c : Cursor) : c.advance.links = c.links := by
  unfold advance
  cases c.ahead <;> rfl

theorem faults_advance (c : Cursor) : c.advance.faults = c.faults := by
  unfold advance
  cases c.ahead <;> rfl

end Cursor

/-- Tokens that do not begin with any of the given marks. -/
def Avoids (signs : List Mark) (rest : List TokenKind) : Prop := ∀ sign ∈ signs, rest.head? ≠ some (.mark sign)

theorem Avoids.of_subset {signs more : List Mark} {rest : List TokenKind} (avoids : Avoids more rest)
    (subset : signs ⊆ more) : Avoids signs rest :=
  fun sign member => avoids sign (subset member)

namespace Parser

/-! ### Reading -/

/-- The cursor has links to spare, if links are counted and there are any to come. -/
def Spares (counted : Bool) (links : Nat) (c : Cursor) : Prop := counted → 0 < links → c.links + links ≤ linkLimit

/-- One cursor stands where the other gets to by reading some tokens without a fault. -/
structure Behind (counted : Bool) (links : Nat) (rest : List TokenKind) (before after : Cursor) : Prop where
  kinds : after.kinds = rest
  links : counted → after.links = before.links + links
  faults : after.faults = before.faults

/-- A parser moves past printed tokens, as long as the tokens behind them are acceptable, and goes on from there. -/
def Passes {α β : Type} (counted : Bool) (p : Parser α) (printed : List TokenKind) (links : Nat)
    (follows : List TokenKind → Prop) (resume : β → Cursor → Except (Finding SyntaxFault) α × Cursor)
    (means : β → Prop) : Prop :=
  ∀ c rest, c.kinds = printed ++ rest → follows rest → Spares counted links c →
    ∃ b after, p.run.run c = resume b after ∧ Behind counted links rest c after ∧ means b

/-- A parser moves past printed tokens, as long as the tokens behind them are acceptable, and yields a value. -/
abbrev Reads {α : Type} (counted : Bool) (p : Parser α) (printed : List TokenKind) (links : Nat)
    (follows : List TokenKind → Prop) (means : α → Prop) : Prop :=
  Passes counted p printed links follows (fun a c => (.ok a, c)) means

/-- Any tokens. -/
abbrev Anything (_ : List TokenKind) : Prop := True

section Rules

variable {α β γ ι : Type} {counted : Bool} {p : Parser α} {printed printed' : List TokenKind} {links links' : Nat}
  {follows between : List TokenKind → Prop} {resume : β → Cursor → Except (Finding SyntaxFault) α × Cursor}
  {means : β → Prop}

theorem Passes.mono {means' : β → Prop} (passes : Passes counted p printed links between resume means)
    (enables : ∀ rest, follows rest → between rest) (implies : ∀ b, means b → means' b) :
    Passes counted p printed links follows resume means' := by
  intro c rest facing next spares
  obtain ⟨b, after, ran, behind, meant⟩ := passes c rest facing (enables rest next) spares
  exact ⟨b, after, ran, behind, implies b meant⟩

/-- What is read whatever follows is read before acceptable tokens. -/
theorem Passes.anywhere (passes : Passes counted p printed links Anything resume means) :
    Passes counted p printed links follows resume means :=
  passes.mono (fun _ _ => trivial) (fun _ => id)

theorem Passes.pure {value : α} {meant : α → Prop} (holds : meant value) :
    Reads counted (pure value) [] 0 follows meant := by
  intro c rest facing _ _
  exact ⟨value, c, rfl, ⟨facing, fun _ => rfl, rfl⟩, holds⟩

/-- Reading one thing and then another; each of them spends its own links. -/
theorem Passes.bind_links {first : Parser γ} {next : γ → Parser α} {meant : γ → Prop}
    (reads : Reads counted first printed links between meant)
    (later : ∀ a, meant a → Passes counted (next a) printed' links' follows resume means)
    (enables : ∀ rest, follows rest → between (printed' ++ rest)) :
    Passes counted (first >>= next) (printed ++ printed') (links + links') follows resume means := by
  intro c rest facing ends spares
  obtain ⟨a, middle, ran, behind, holds⟩ :=
    reads c (printed' ++ rest) (by rw [facing, List.append_assoc]) (enables rest ends)
      (fun counts some => Nat.le_trans (by omega) (spares counts (by omega)))
  obtain ⟨b, after, ran', behind', holds'⟩ :=
    later a holds middle rest behind.kinds ends
      (fun counts some => by have := behind.links counts; have := spares counts (by omega); omega)
  refine ⟨b, after, ?_, ⟨behind'.kinds, fun counts => ?_, behind'.faults.trans behind.faults⟩, holds'⟩
  · rw [ExceptT.run_bind_state, ran]
    exact ran'
  · rw [behind'.links counts, behind.links counts, Nat.add_assoc]

/-- Reading one thing without links and then another. -/
theorem Passes.bind {first : Parser γ} {next : γ → Parser α} {meant : γ → Prop}
    (reads : Reads counted first printed 0 between meant)
    (later : ∀ a, meant a → Passes counted (next a) printed' links follows resume means)
    (enables : ∀ rest, follows rest → between (printed' ++ rest)) :
    Passes counted (first >>= next) (printed ++ printed') links follows resume means :=
  Nat.zero_add links ▸ reads.bind_links later enables

/-- Reading one thing and then another without links. -/
theorem Passes.bind_rest {first : Parser γ} {next : γ → Parser α} {meant : γ → Prop}
    (reads : Reads counted first printed links between meant)
    (later : ∀ a, meant a → Passes counted (next a) printed' 0 follows resume means)
    (enables : ∀ rest, follows rest → between (printed' ++ rest)) :
    Passes counted (first >>= next) (printed ++ printed') links follows resume means :=
  reads.bind_links later enables

/-- Reading one thing and then ending. -/
theorem Passes.bind_done {first : Parser γ} {next : γ → Parser α} {meant : γ → Prop}
    (reads : Reads counted first printed links follows meant)
    (later : ∀ a, meant a → Passes counted (next a) [] 0 follows resume means) :
    Passes counted (first >>= next) printed links follows resume means :=
  List.append_nil printed ▸ reads.bind_rest later (fun _ => id)

theorem Passes.map {q : Parser γ} {meant : γ → Prop} {f : γ → α} {meant' : α → Prop}
    (reads : Reads counted q printed links follows meant) (implies : ∀ a, meant a → meant' (f a)) :
    Reads counted (f <$> q) printed links follows meant' := by
  rw [map_eq_pure_bind]
  exact reads.bind_done fun a holds => .pure (implies a holds)

/-! ### Single tokens -/

/-- A parser that looks at its cursor. -/
theorem Passes.get {next : Cursor → Parser α}
    (later : ∀ c rest, c.kinds = printed ++ rest → follows rest →
      Passes counted (next c) printed links follows resume means) :
    Passes counted (MonadState.get >>= next) printed links follows resume means := by
  intro c rest facing ends spares
  obtain ⟨b, after, ran, behind, holds⟩ := later c rest facing ends c rest facing ends spares
  exact ⟨b, after, (ExceptT.run_bind_state _ _ _).trans ran, behind, holds⟩

/-- A parser that looks at its next token. -/
theorem Passes.next {kind : TokenKind} {next : Cursor → Parser α}
    (later : ∀ c, c.next? = some kind → Passes counted (next c) (kind :: printed) links follows resume means) :
    Passes counted (MonadState.get >>= next) (kind :: printed) links follows resume means := by
  apply Passes.get
  intro c rest facing _
  apply later
  rw [Cursor.next?_eq, facing, List.cons_append, List.head?_cons]

theorem Passes.skip {kind : TokenKind} {next : Unit → Parser α}
    (later : Passes counted (next ()) printed links follows resume means) :
    Passes counted (skip >>= next) (kind :: printed) links follows resume means := by
  intro c rest facing ends spares
  have advanced : c.advance.kinds = printed ++ rest := by rw [Cursor.kinds_advance, facing]; rfl
  obtain ⟨b, after, ran, behind, holds⟩ :=
    later c.advance rest advanced ends (by rwa [Spares, Cursor.links_advance])
  refine ⟨b, after, (ExceptT.run_bind_state _ _ _).trans ran, ⟨behind.kinds, fun counts => ?_, ?_⟩, holds⟩
  · rw [behind.links counts, Cursor.links_advance]
  · rw [behind.faults, Cursor.faults_advance]

theorem Passes.sees {kind : TokenKind} {next : Bool → Parser α} (sight : Bool)
    (ahead : ∀ rest, follows rest → ((printed ++ rest).head? == some kind) = sight)
    (later : Passes counted (next sight) printed links follows resume means) :
    Passes counted (sees kind >>= next) printed links follows resume means := by
  rw [Parser.sees, bind_assoc]
  refine .get fun c rest facing ends => ?_
  rwa [pure_bind, Cursor.next?_eq, facing, ahead rest ends]

theorem Passes.sees_true {kind : TokenKind} {next : Bool → Parser α}
    (later : Passes counted (next true) (kind :: printed) links follows resume means) :
    Passes counted (Parser.sees kind >>= next) (kind :: printed) links follows resume means :=
  .sees true (fun _ _ => by simp) later

theorem Passes.sees_false {kind : TokenKind} {next : Bool → Parser α}
    (differs : ∀ rest, follows rest → (printed ++ rest).head? ≠ some kind)
    (later : Passes counted (next false) printed links follows resume means) :
    Passes counted (Parser.sees kind >>= next) printed links follows resume means :=
  .sees false (fun rest ends => by simpa using differs rest ends) later

theorem Passes.accept_true {kind : TokenKind} {next : Bool → Parser α}
    (later : Passes counted (next true) printed links follows resume means) :
    Passes counted (accept kind >>= next) (kind :: printed) links follows resume means := by
  rw [accept, bind_assoc]
  refine .sees_true ?_
  simp only [↓reduceIte, bind_assoc, pure_bind]
  exact .skip later

theorem Passes.accept_false {kind : TokenKind} {next : Bool → Parser α}
    (differs : ∀ rest, follows rest → (printed ++ rest).head? ≠ some kind)
    (later : Passes counted (next false) printed links follows resume means) :
    Passes counted (accept kind >>= next) printed links follows resume means := by
  rw [accept, bind_assoc]
  refine .sees_false differs ?_
  simpa using later

theorem Passes.expect {kind : TokenKind} {what : String} {next : Span → Parser α}
    (later : ∀ span, Passes counted (next span) printed links follows resume means) :
    Passes counted (expect kind what >>= next) (kind :: printed) links follows resume means := by
  rw [Parser.expect, bind_assoc]
  refine .accept_true ?_
  simp only [↓reduceIte, bind_assoc, pure_bind]
  exact .get fun c _ _ _ => later c.last

theorem Passes.ident {name : String} {next : Ident → Parser α}
    (later : ∀ i : Ident, i.name = name → Passes counted (next i) printed links follows resume means) :
    Passes counted (ident >>= next) (.ident name :: printed) links follows resume means := by
  rw [Parser.ident, bind_assoc]
  refine .get fun c rest facing _ => ?_
  rw [Cursor.next?_eq, facing]
  simp only [List.cons_append, List.head?_cons, bind_assoc, pure_bind]
  exact .skip (.get fun c _ _ _ => later ⟨name, c.last⟩ rfl)

/-- A link counts while there are links to spare. -/
theorem Passes.link {next : Unit → Parser α}
    (later : Passes true (next ()) printed links follows resume means) :
    Passes true (link >>= next) printed (links + 1) follows resume means := by
  intro c rest facing ends spares
  have enough : ¬ c.links + 1 > linkLimit := by have := spares rfl (Nat.succ_pos _); omega
  have fewer : Spares true links { c with links := c.links + 1 } := fun _ _ => by
    have := spares rfl (Nat.succ_pos _)
    simp only
    omega
  obtain ⟨b, after, ran, behind, holds⟩ := later { c with links := c.links + 1 } rest facing ends fewer
  refine ⟨b, after, ?_, ⟨behind.kinds, fun counts => ?_, behind.faults⟩, holds⟩
  · have counted : Parser.link.run.run c = (.ok (), { c with links := c.links + 1 }) := by
      change (if c.links + 1 > linkLimit then fail .expressionTooLong else Pure.pure () : Parser Unit).run.run _ = _
      rw [if_neg enough]
      rfl
    rw [ExceptT.run_bind_state, counted]
    exact ran
  · rw [behind.links counts, Nat.add_assoc, Nat.add_comm 1]

/-- Beginning to count links: a whole count is to spare, and nothing is said about the count before. -/
theorem Passes.resetLinks {q : Parser α} {meant : α → Prop} (reads : Reads true q printed links follows meant)
    (few : links ≤ linkLimit) : Reads false (resetLinks >>= fun _ => q) printed 0 follows meant := by
  intro c rest facing ends _
  obtain ⟨a, after, ran, behind, holds⟩ :=
    reads { c with links := 0 } rest facing ends (fun _ _ => by simpa using few)
  exact ⟨a, after, (ExceptT.run_bind_state _ _ _).trans ran, { behind with links := nofun }, holds⟩

theorem Passes.resetLinks_uncounted {q : Parser α} {meant : α → Prop}
    (reads : Reads false q printed 0 follows meant) :
    Reads false (Parser.resetLinks >>= fun _ => q) printed 0 follows meant := by
  intro c rest facing ends _
  obtain ⟨a, after, ran, behind, holds⟩ := reads { c with links := 0 } rest facing ends nofun
  exact ⟨a, after, (ExceptT.run_bind_state _ _ _).trans ran, { behind with links := nofun }, holds⟩

/-! ### Loops and recovery -/

section Loops

variable {body : α → Parser (Option α)}

/-- A loop begins inside its run. -/
theorem Passes.iterate {value : α} :
    Passes counted (iterate body value) [] 0 Anything (iterateFrom body) (· = value) := by
  intro c rest facing _ _
  exact ⟨value, c, rfl, ⟨facing, fun _ => rfl, rfl⟩, rfl⟩

/-- A loop that reads one more item stays inside its run. -/
theorem Passes.step {meant meant' : α → Prop}
    (inside : Passes counted p printed links between (iterateFrom body) meant)
    (reads : ∀ a, meant a →
      Reads counted (body a) printed' links' follows (fun r => ∃ more, r = some more ∧ meant' more))
    (shows : printed' ≠ []) (enables : ∀ rest, follows rest → between (printed' ++ rest)) :
    Passes counted p (printed ++ printed') (links + links') follows (iterateFrom body) meant' := by
  intro c rest facing ends spares
  obtain ⟨a, middle, ran, behind, holds⟩ :=
    inside c (printed' ++ rest) (by rw [facing, List.append_assoc]) (enables rest ends)
      (fun counts some => Nat.le_trans (by omega) (spares counts (by omega)))
  obtain ⟨_, after, ran', behind', more, rfl, holds'⟩ :=
    reads a holds middle rest behind.kinds ends
      (fun counts some => by have := behind.links counts; have := spares counts (by omega); omega)
  -- A loop ends where its cursor stays, so the item has to show tokens.
  have shorter : after.ahead.length < middle.ahead.length := by
    have before := congrArg List.length behind.kinds
    have now := congrArg List.length behind'.kinds
    have := List.length_pos_iff.mpr shows
    simp only [Cursor.kinds, List.length_map, List.length_append] at before now
    omega
  refine ⟨more, after, ?_, ⟨behind'.kinds, fun counts => ?_, behind'.faults.trans behind.faults⟩, holds'⟩
  · rw [ran, iterateFrom, ran']
    simp only [shorter, ↓reduceIte]
  · rw [behind'.links counts, behind.links counts, Nat.add_assoc]

/-- A loop that finds no more items yields the value it has come to. -/
theorem Passes.stop {meant : α → Prop}
    (inside : Passes counted p printed links between (iterateFrom body) meant)
    (stops : ∀ a, meant a → Reads counted (body a) [] 0 follows (· = none))
    (enables : ∀ rest, follows rest → between rest) : Reads counted p printed links follows meant := by
  intro c rest facing ends spares
  obtain ⟨a, middle, ran, behind, holds⟩ := inside c rest facing (enables rest ends) spares
  obtain ⟨_, after, ran', behind', rfl⟩ :=
    stops a holds middle rest behind.kinds ends (fun _ none => absurd none (Nat.lt_irrefl 0))
  refine ⟨a, after, ?_, ⟨behind'.kinds, fun counts => ?_, behind'.faults.trans behind.faults⟩, holds⟩
  · rw [ran, iterateFrom, ran']
  · rw [behind'.links counts, behind.links counts, Nat.add_zero]

/-- A loop that reads a list of items: `good` relates the items to come to the value so far. -/
theorem Passes.steps {print : ι → List TokenKind} {items : List ι} (cost : ι → Nat) (good : List ι → α → Prop)
    (inside : Passes counted p printed links between (iterateFrom body) (good items))
    (reads : ∀ item later a, good (item :: later) a →
      Reads counted (body a) (print item) (cost item) between (fun r => ∃ more, r = some more ∧ good later more))
    (shows : ∀ item, print item ≠ [])
    (enables : ∀ item rest, between (print item ++ rest))
    (total : (items.map cost).sum = links') :
    Passes counted p (printed ++ items.flatMap print) (links + links') between (iterateFrom body) (good []) := by
  induction items generalizing printed links links' with
  | nil => simpa [← total] using inside
  | cons item later ih =>
    have next := inside.step (reads item later) (shows item) (fun rest _ => enables item rest)
    simpa [← total, Nat.add_assoc] using ih next rfl

/-- A loop that collects a list of items. -/
theorem Passes.collect {body : List α → Parser (Option (List α))} {print : ι → List TokenKind}
    {items : List ι} {done : List α} (between : List TokenKind → Prop) (cost : ι → Nat) (same : ι → α → Prop)
    (reads : ∀ item ∈ items, ∀ done,
      Reads counted (body done) (print item) (cost item) between (fun r => ∃ a, r = some (done ++ [a]) ∧ same item a))
    (stops : ∀ done, Reads counted (body done) [] 0 follows (· = none))
    (shows : ∀ item, print item ≠ [])
    (enables : ∀ item rest, between (print item ++ rest)) (ends : ∀ rest, follows rest → between rest)
    (total : (items.map cost).sum = links) :
    Reads counted (Parser.iterate body done) (items.flatMap print) links follows
      (fun all => ∃ read, all = done ++ read ∧ List.Forall₂ same items read) := by
  -- The items are those that are ready, which are the ones collected, and those to come.
  let good (later : List ι) (all : List α) : Prop :=
    ∃ ready read, items = ready ++ later ∧ all = done ++ read ∧ List.Forall₂ same ready read
  have start : good items done := ⟨[], [], rfl, (List.append_nil done).symm, .nil⟩
  have inside : Passes counted (Parser.iterate body done) [] 0 between (iterateFrom body) (good items) :=
    Passes.iterate.mono (fun _ _ => trivial) (fun a same => same ▸ start)
  have finished : Passes counted (Parser.iterate body done) ([] ++ items.flatMap print) (0 + links) between
      (iterateFrom body) (good []) := inside.steps cost good ?_ shows enables total
  rw [List.nil_append, Nat.zero_add] at finished
  refine (finished.stop (fun all _ => stops all) ends).mono (fun _ => id) ?_
  · rintro all ⟨ready, read, rfl, rfl, same⟩
    exact ⟨read, rfl, by rwa [List.append_nil]⟩
  · rintro item later all ⟨ready, read, split, rfl, same⟩
    have member : item ∈ items := by rw [split]; simp
    refine (reads item member _).mono (fun _ => id) ?_
    rintro r ⟨a, rfl, same'⟩
    exact ⟨_, rfl, ready ++ [item], read ++ [a], by simp [split], by simp, List.rel_append same (.cons same' .nil)⟩

end Loops

theorem recover_run {q : Parser α} {moveOn : Cursor → Cursor} {c after : Cursor} {a : α}
    (ran : q.run.run c = (.ok a, after)) : (recover q moveOn).run.run c = (.ok (some a), after) := by
  simp only [recover, tryCatch, tryCatchThe, MonadExceptOf.tryCatch, ExceptT.tryCatch, Bind.bind, ExceptT.bind,
    ExceptT.mk, ExceptT.run, ExceptT.bindCont, StateT.bind, StateT.run] at ran ⊢
  rw [ran]
  rfl

/-- A step that throws nothing is not recovered from. -/
theorem Passes.recover {q : Parser α} {meant : α → Prop} {moveOn : Cursor → Cursor}
    (reads : Reads counted q printed links follows meant) :
    Reads counted (recover q moveOn) printed links follows (fun r => ∃ a, r = some a ∧ meant a) := by
  intro c rest facing ends spares
  obtain ⟨a, after, ran, behind, holds⟩ := reads c rest facing ends spares
  exact ⟨some a, after, recover_run ran, behind, a, rfl, holds⟩

/-- A loop that recovers from faulty items adds the one that it reads. -/
theorem Passes.recover_append {q : Parser α} {meant : α → Prop} {moveOn : Cursor → Cursor} {done : List α}
    (reads : Reads counted q printed links follows meant) :
    Reads counted (do return some (done ++ (← Parser.recover q moveOn).toList)) printed links follows
      (fun r => ∃ a, r = some (done ++ [a]) ∧ meant a) := by
  apply reads.recover.bind_done
  rintro _ ⟨a, rfl, holds⟩
  exact .pure ⟨a, rfl, holds⟩

end Rules

end Parser

end RouteDepot.RouteClass
