import RouteDepot.Proofs.Layout.Alignment
import RouteDepot.Proofs.Running
import RouteDepot.Proofs.Spelling.Accounts

/-! # Parsers in step

Two parsers are in step when aligned cursors lead them to the same outcome: related values or the same fault, and
cursors that are aligned again and not further in front than before. How values are related may depend on the offset at
which the bytes read last end; it has to hold from there on where a loop goes on from the values.
-/

namespace RouteDepot.RouteClass.Parser

variable {α β γ δ : Type} {m : Alignment} {c d : Cursor} {lo : Nat} {V W : Nat → α → β → Prop}

/-- The same outcome of two parses, not in front of `lo`. -/
inductive SameOutcome (m : Alignment) (lo : Nat) (V : Nat → α → β → Prop) :
    Except (Finding SyntaxFault) α × Cursor → Except (Finding SyntaxFault) β × Cursor → Prop
  | ok {a : α} {b : β} {c d : Cursor} (aligned : c.Aligned m d) (forth : lo ≤ c.last.stop)
    (values : V c.last.stop a b) : SameOutcome m lo V (.ok a, c) (.ok b, d)
  | error {f g : Finding SyntaxFault} {c d : Cursor} (aligned : c.Aligned m d) (forth : lo ≤ c.last.stop)
    (faults : f.Alike m.Spans g) : SameOutcome m lo V (.error f, c) (.error g, d)

/-- Two parsers have the same outcome from two cursors. -/
def InStep (m : Alignment) (p : Parser α) (q : Parser β) (c d : Cursor) (V : Nat → α → β → Prop) : Prop :=
  SameOutcome m c.last.stop V (p.run.run c) (q.run.run d)

namespace SameOutcome

variable {r : Except (Finding SyntaxFault) α × Cursor} {s : Except (Finding SyntaxFault) β × Cursor}

theorem imp (same : SameOutcome m lo V r s) (implies : ∀ hi a b, lo ≤ hi → V hi a b → W hi a b) :
    SameOutcome m lo W r s := by
  cases same with
  | ok aligned forth values => exact .ok aligned forth (implies _ _ _ forth values)
  | error aligned forth faults => exact .error aligned forth faults

theorem mono {lo' : Nat} (same : SameOutcome m lo V r s) (below : lo' ≤ lo) : SameOutcome m lo' V r s := by
  cases same with
  | ok aligned forth values => exact .ok aligned (Nat.le_trans below forth) values
  | error aligned forth faults => exact .error aligned (Nat.le_trans below forth) faults

end SameOutcome

namespace InStep

/-! ### Rules -/

theorem imp {p : Parser α} {q : Parser β} (inStep : InStep m p q c d V)
    (implies : ∀ hi a b, c.last.stop ≤ hi → V hi a b → W hi a b) : InStep m p q c d W :=
  SameOutcome.imp inStep implies

theorem of_run {p : Parser α} {q : Parser β} {r : Except (Finding SyntaxFault) α × Cursor}
    (inStep : InStep m p q c d V) (ran : p.run.run c = r) : SameOutcome m c.last.stop V r (q.run.run d) :=
  ran ▸ inStep

theorem pure {a : α} {b : β} (aligned : c.Aligned m d) (values : V c.last.stop a b) :
    InStep m (pure a) (pure b) c d V :=
  .ok aligned (Nat.le_refl _) values

theorem bind {first : Parser α} {first' : Parser β} {next : α → Parser γ} {next' : β → Parser δ}
    {W : Nat → γ → δ → Prop} (inStep : InStep m first first' c d V)
    (later : ∀ a b c' d', c'.Aligned m d' → c.last.stop ≤ c'.last.stop → V c'.last.stop a b →
      InStep m (next a) (next' b) c' d' W) :
    InStep m (first >>= next) (first' >>= next') c d W := by
  unfold InStep at inStep ⊢
  rw [ExceptT.run_bind_state, ExceptT.run_bind_state]
  generalize first.run.run c = r, first'.run.run d = s at inStep
  cases inStep with
  | ok aligned forth values => exact (later _ _ _ _ aligned forth values).mono forth
  | error aligned forth faults => exact .error aligned forth faults

theorem map {p : Parser γ} {q : Parser δ} {f : γ → α} {g : δ → β}
    (inStep : InStep m p q c d fun hi a b => V hi (f a) (g b)) : InStep m (f <$> p) (g <$> q) c d V := by
  rw [map_eq_pure_bind, map_eq_pure_bind]
  exact inStep.bind fun a b c' d' aligned _ values => .pure aligned values

theorem get {next : Cursor → Parser α} {next' : Cursor → Parser β} (later : InStep m (next c) (next' d) c d V) :
    InStep m (MonadState.get >>= next) (MonadState.get >>= next') c d V := by
  unfold InStep
  rw [ExceptT.run_bind_state, ExceptT.run_bind_state]
  exact later

/-- Moving to another place and going on there. -/
theorem moves {step step' : Parser Unit} {c' d' : Cursor} {next : Unit → Parser α} {next' : Unit → Parser β}
    (ran : step.run.run c = (.ok (), c')) (ran' : step'.run.run d = (.ok (), d')) (forth : c.last.stop ≤ c'.last.stop)
    (later : InStep m (next ()) (next' ()) c' d' V) : InStep m (step >>= next) (step' >>= next') c d V := by
  unfold InStep
  rw [ExceptT.run_bind_state, ExceptT.run_bind_state, ran, ran']
  exact later.mono forth

/-! ### Faults -/

theorem failAt {span span' : Span} {fault : SyntaxFault} (aligned : c.Aligned m d) (spans : m.Spans span span') :
    InStep m (Parser.failAt span fault) (Parser.failAt span' fault) c d V :=
  .error aligned (Nat.le_refl _) ⟨rfl, spans⟩

theorem fail {fault : SyntaxFault} (aligned : c.Aligned m d) : InStep m (Parser.fail fault) (Parser.fail fault) c d V :=
  get (failAt aligned aligned.here.1)

theorem failExpected {what : String} (aligned : c.Aligned m d) :
    InStep m (Parser.failExpected what) (Parser.failExpected what) c d V := by
  apply get
  rw [aligned.next?_eq]
  exact fail aligned

/-- Nothing follows a fault. -/
theorem fail_bind {fault : SyntaxFault} {next : α → Parser γ} {next' : β → Parser δ} {W : Nat → γ → δ → Prop}
    (aligned : c.Aligned m d) : InStep m (Parser.fail fault >>= next) (Parser.fail fault >>= next') c d W :=
  .bind (V := fun _ _ _ => False) (fail aligned) fun _ _ _ _ _ _ => False.elim

theorem failExpected_bind {what : String} {next : α → Parser γ} {next' : β → Parser δ} {W : Nat → γ → δ → Prop}
    (aligned : c.Aligned m d) :
    InStep m (Parser.failExpected what >>= next) (Parser.failExpected what >>= next') c d W :=
  .bind (V := fun _ _ _ => False) (failExpected aligned) fun _ _ _ _ _ _ => False.elim

/-! ### Single tokens -/

theorem skip {kind : TokenKind} {next : Unit → Parser α} {next' : Unit → Parser β} (aligned : c.Aligned m d)
    (head : c.next? = some kind)
    (later : c.advance.Aligned m d.advance → c.last.stop ≤ c.advance.last.stop → c.advance.last = c.here →
      d.advance.last = d.here → InStep m (next ()) (next' ()) c.advance d.advance V) :
    InStep m (Parser.skip >>= next) (Parser.skip >>= next') c d V := by
  obtain ⟨advanced, last, last'⟩ := aligned.advance head
  obtain ⟨spans, apart⟩ := aligned.here
  have forth : c.last.stop ≤ c.advance.last.stop := by
    rw [last]
    exact Nat.le_trans apart spans.ordered
  exact .moves rfl rfl forth (later advanced forth last last')

theorem sees {kind : TokenKind} {next : Bool → Parser α} {next' : Bool → Parser β} (aligned : c.Aligned m d)
    (present : c.next? = some kind → InStep m (next true) (next' true) c d V)
    (absent : InStep m (next false) (next' false) c d V) :
    InStep m (Parser.sees kind >>= next) (Parser.sees kind >>= next') c d V := by
  rw [Parser.sees, bind_assoc, bind_assoc]
  apply get
  rw [pure_bind, pure_bind, ← aligned.next?_eq]
  by_cases head : c.next? = some kind
  · rw [beq_iff_eq.mpr head]
    exact present head
  · rw [beq_eq_false_iff_ne.mpr head]
    exact absent

theorem accept {kind : TokenKind} {next : Bool → Parser α} {next' : Bool → Parser β} (aligned : c.Aligned m d)
    (present : ∀ c' d', c'.Aligned m d' → c.last.stop ≤ c'.last.stop → InStep m (next true) (next' true) c' d' V)
    (absent : InStep m (next false) (next' false) c d V) :
    InStep m (Parser.accept kind >>= next) (Parser.accept kind >>= next') c d V := by
  rw [Parser.accept, bind_assoc, bind_assoc]
  apply sees aligned
  · intro head
    simp only [↓reduceIte, bind_assoc, pure_bind]
    exact skip aligned head fun advanced forth _ _ => present _ _ advanced forth
  · simpa using absent

/-- A word without meaning. -/
theorem optionally {kind : TokenKind} {next : Bool → Parser α} {next' : Bool → Parser β} (aligned : c.Aligned m d)
    (later : ∀ b c' d', c'.Aligned m d' → c.last.stop ≤ c'.last.stop → InStep m (next b) (next' b) c' d' V) :
    InStep m (Parser.accept kind >>= next) (Parser.accept kind >>= next') c d V :=
  accept aligned (later true) (later false c d aligned (Nat.le_refl _))

theorem expect {kind : TokenKind} {what : String} (aligned : c.Aligned m d) :
    InStep m (Parser.expect kind what) (Parser.expect kind what) c d fun hi s t =>
      m.Spans s t ∧ c.last.stop ≤ s.start ∧ s.stop = hi := by
  rw [Parser.expect, Parser.accept, bind_assoc]
  apply sees aligned
  · intro head
    simp only [↓reduceIte, bind_assoc, pure_bind]
    apply skip aligned head
    intro advanced _ last last'
    obtain ⟨spans, apart⟩ := aligned.here
    apply get
    refine pure advanced ⟨?_, ?_, rfl⟩
    · rwa [last, last']
    · rwa [last]
  · simpa using failExpected aligned

theorem link {next : Unit → Parser α} {next' : Unit → Parser β} (aligned : c.Aligned m d)
    (later : ∀ c' d', c'.Aligned m d' → c.last.stop ≤ c'.last.stop → InStep m (next ()) (next' ()) c' d' V) :
    InStep m (Parser.link >>= next) (Parser.link >>= next') c d V := by
  simp only [Parser.link, bind_assoc]
  have counted : Cursor.Aligned m { c with links := c.links + 1 } { d with links := d.links + 1 } :=
    ⟨aligned.facing, congrArg (· + 1) aligned.links, aligned.faults⟩
  refine .moves rfl rfl (Nat.le_refl _) (get ?_)
  rw [← counted.links]
  split
  · exact fail_bind counted
  · rw [pure_bind, pure_bind]
    exact later _ _ counted (Nat.le_refl _)

theorem resetLinks {next : Unit → Parser α} {next' : Unit → Parser β} (aligned : c.Aligned m d)
    (later : ∀ c' d', c'.Aligned m d' → c.last.stop ≤ c'.last.stop → InStep m (next ()) (next' ()) c' d' V) :
    InStep m (Parser.resetLinks >>= next) (Parser.resetLinks >>= next') c d V :=
  .moves rfl rfl (Nat.le_refl _) (later _ _ ⟨aligned.facing, rfl, aligned.faults⟩ (Nat.le_refl _))

/-! ### Loops and recovery -/

theorem iterateFrom {step : α → Parser (Option α)} {step' : β → Parser (Option β)}
    (rises : ∀ lo hi a b, lo ≤ hi → V lo a b → V hi a b)
    (steps : ∀ a b c d, c.Aligned m d → lo ≤ c.last.stop → V c.last.stop a b →
      InStep m (step a) (step' b) c d fun hi => Option.Rel (V hi))
    (a : α) (b : β) (c d : Cursor) (aligned : c.Aligned m d) (above : lo ≤ c.last.stop) (values : V c.last.stop a b) :
    SameOutcome m c.last.stop V (iterateFrom step a c) (Parser.iterateFrom step' b d) := by
  fun_induction Parser.iterateFrom step a c generalizing b d with
  | case1 a c fault after failed =>
    have outcome := (steps a b c d aligned above values).of_run failed
    rw [Parser.iterateFrom.eq_def step' b d]
    generalize (step' b).run.run d = s at outcome ⊢
    cases outcome with
    | error aligned forth faults => exact .error aligned forth faults
  | case2 a c after stopped =>
    have outcome := (steps a b c d aligned above values).of_run stopped
    rw [Parser.iterateFrom.eq_def step' b d]
    generalize (step' b).run.run d = s at outcome ⊢
    cases outcome with
    | ok aligned forth related =>
      cases related
      exact .ok aligned forth (rises _ _ _ _ forth values)
  | case3 a c next after stepped shorter ih =>
    have outcome := (steps a b c d aligned above values).of_run stepped
    rw [Parser.iterateFrom.eq_def step' b d]
    generalize (step' b).run.run d = s at outcome ⊢
    cases outcome with
    | ok moved forth related =>
      cases related with
      | some related =>
        rw [aligned.facing.length_eq, moved.facing.length_eq] at shorter
        dsimp only
        rw [if_pos shorter]
        exact (ih _ _ moved (Nat.le_trans above forth) related).mono forth
  | case4 a c next after stepped longer =>
    have outcome := (steps a b c d aligned above values).of_run stepped
    rw [Parser.iterateFrom.eq_def step' b d]
    generalize (step' b).run.run d = s at outcome ⊢
    cases outcome with
    | ok moved forth related =>
      cases related with
      | some related =>
        rw [aligned.facing.length_eq, moved.facing.length_eq] at longer
        dsimp only
        rw [if_neg longer]
        exact .ok moved forth related

/-- A loop whose steps keep the values related. -/
theorem iterate {step : α → Parser (Option α)} {step' : β → Parser (Option β)} {a : α} {b : β}
    (aligned : c.Aligned m d) (values : V c.last.stop a b) (rises : ∀ lo hi a b, lo ≤ hi → V lo a b → V hi a b)
    (steps : ∀ a b c' d', c'.Aligned m d' → c.last.stop ≤ c'.last.stop → V c'.last.stop a b →
      InStep m (step a) (step' b) c' d' fun hi => Option.Rel (V hi)) :
    InStep m (Parser.iterate step a) (Parser.iterate step' b) c d V :=
  iterateFrom rises steps a b c d aligned (Nat.le_refl _) values

/-- A loop whose values are related in the same way wherever it goes on from. -/
theorem iterate_related {R : α → β → Prop} {step : α → Parser (Option α)} {step' : β → Parser (Option β)} {a : α}
    {b : β} (aligned : c.Aligned m d) (start : R a b)
    (steps : ∀ a b c' d', c'.Aligned m d' → R a b → InStep m (step a) (step' b) c' d' fun _ => Option.Rel R) :
    InStep m (Parser.iterate step a) (Parser.iterate step' b) c d fun _ => R :=
  iterate (V := fun _ => R) aligned start (fun _ _ _ _ _ => id) fun a b c' d' aligned _ => steps a b c' d' aligned

theorem recover {p : Parser α} {q : Parser β} {moveOn : Cursor → Cursor} (moves : MovesAligned m moveOn)
    (inStep : InStep m p q c d V) :
    InStep m (Parser.recover p moveOn) (Parser.recover q moveOn) c d fun hi => Option.Rel (V hi) := by
  unfold InStep at inStep ⊢
  generalize ran : p.run.run c = r, ran' : q.run.run d = s at inStep
  cases inStep with
  | @ok _ _ after after' aligned forth values =>
    rw [recover_run ran, recover_run ran']
    exact .ok aligned forth (.some values)
  | @error f g after after' aligned forth faults =>
    rw [recover_run_error ran, recover_run_error ran']
    have recorded : Cursor.Aligned m { after with faults := after.faults ++ [f] }
        { after' with faults := after'.faults ++ [g] } :=
      ⟨aligned.facing, aligned.links, List.rel_append aligned.faults (.cons faults .nil)⟩
    obtain ⟨moved, further⟩ := moves _ _ recorded
    exact .ok moved (Nat.le_trans forth further) .none

end InStep

end RouteDepot.RouteClass.Parser
