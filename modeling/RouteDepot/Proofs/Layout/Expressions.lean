import RouteDepot.Proofs.Layout.InStep
import RouteDepot.Proofs.Layout.Tree
import RouteDepot.Proofs.Spelling.Names

/-! # Expressions in step

The parsers of names and expressions are in step with themselves. What they yield begins behind the bytes that were
read before and ends where the bytes read last end, or in front of it; so the bytes from the beginning of one part of an
expression to the end of another are in order.
-/

namespace RouteDepot.RouteClass.Parser

variable {α β : Type} {m : Alignment} {c d : Cursor}

/-! ### Names -/

theorem ident_inStep (aligned : c.Aligned m d) :
    InStep m ident ident c d fun hi i j => i.Aligned m.Spans j ∧ c.last.stop ≤ i.span.start ∧ i.span.stop = hi := by
  unfold ident
  apply InStep.get
  rw [← aligned.next?_eq]
  split
  · next name head =>
    apply InStep.skip aligned head
    intro advanced _ last last'
    obtain ⟨spans, apart⟩ := aligned.here
    apply InStep.get
    refine .pure advanced ⟨⟨rfl, ?_⟩, ?_, rfl⟩
    · rwa [last, last']
    · rwa [last]
  · exact .failExpected aligned

theorem dottedName_inStep (aligned : c.Aligned m d) :
    InStep m dottedName dottedName c d fun hi n k =>
      n.Aligned m.Spans k ∧ c.last.stop ≤ n.span.start ∧ n.span.stop ≤ hi := by
  apply (ident_inStep aligned).bind
  rintro i j c' d' aligned' forth ⟨same, above, below⟩
  apply (InStep.iterate_related (R := Eq) aligned' ?start ?step).bind
  case start => rw [same.name]
  case step =>
    rintro parts _ c d aligned rfl
    have kinds := aligned.facing.kinds_eq
    apply InStep.get
    split
    · next ahead =>
      rw [ahead] at kinds
      obtain ⟨_, _, ahead', more⟩ := tokens_eq_cons kinds.symm
      obtain ⟨_, _, rfl, _⟩ := tokens_eq_cons more
      simp only [ahead']
      apply InStep.skip aligned (next?_of_ahead ahead)
      intro advanced _ _ _
      apply (ident_inStep advanced).bind
      rintro i j c d aligned _ ⟨same, _⟩
      apply InStep.pure aligned
      rw [same.name]
      exact .some rfl
    · next ends =>
      split
      · next ahead' =>
        rw [ahead'] at kinds
        obtain ⟨_, _, ahead, more⟩ := tokens_eq_cons kinds
        obtain ⟨_, _, rfl, _⟩ := tokens_eq_cons more
        exact absurd ahead (ends _ _ _ _)
      · exact .pure aligned .none
  · rintro parts _ c'' d'' aligned'' further rfl
    apply InStep.get
    refine .pure aligned'' ⟨⟨rfl, same.spans.upTo aligned''.facing.lasts ?_⟩, above, Nat.le_refl _⟩
    rwa [below]

/-! ### Lists -/

section Lists

variable {item : Parser α} {item' : Parser β} {R : α → β → Prop}

theorem commaSeparated_inStep (aligned : c.Aligned m d)
    (items : ∀ c d, c.Aligned m d → InStep m item item' c d fun _ => R) :
    InStep m (commaSeparated item) (commaSeparated item') c d fun _ => List.Forall₂ R := by
  apply (items c d aligned).bind
  intro a b c d aligned _ related
  apply InStep.iterate_related aligned (.cons related .nil)
  intro done done' c d aligned all
  apply InStep.accept aligned
  · intro c d aligned _
    simp only [↓reduceIte]
    apply (items c d aligned).bind
    intro a b c d aligned _ related
    exact .pure aligned (.some (List.rel_append all (.cons related .nil)))
  · simp only [Bool.false_eq_true, ↓reduceIte]
    exact .pure aligned .none

theorem enclosed_inStep (aligned : c.Aligned m d)
    (items : ∀ c d, c.Aligned m d → InStep m item item' c d fun _ => R) :
    InStep m (enclosed item) (enclosed item') c d fun _ => List.Forall₂ R := by
  have closing {all : List α} {all' : List β} {c d : Cursor} (aligned : c.Aligned m d)
      (related : List.Forall₂ R all all') :
      InStep m (do let _ ← expect (.mark .parenClose) "')'"; return all)
        (do let _ ← expect (.mark .parenClose) "')'"; return all') c d fun _ => List.Forall₂ R :=
    (InStep.expect aligned).bind fun _ _ _ _ aligned _ _ => .pure aligned related
  apply (InStep.expect aligned).bind
  intro _ _ c d aligned _ _
  apply InStep.sees aligned
  · intro _
    simp only [↓reduceIte, pure_bind]
    exact closing aligned .nil
  · simp only [Bool.false_eq_true, ↓reduceIte]
    apply (commaSeparated_inStep aligned items).bind
    intro all all' c d aligned _ related
    exact closing aligned related

end Lists

/-! ### Expressions -/

/-- The same expression, not in front of `lo` nor beyond `hi`. -/
structure Stands (m : Alignment) (lo hi : Nat) (e e' : Expression) : Prop where
  aligned : e.Aligned m.Spans e'
  above : lo ≤ e.start
  below : e.stop ≤ hi

theorem Stands.widen {lo hi lo' hi' : Nat} {e e' : Expression} (stands : Stands m lo hi e e') (below : lo' ≤ lo)
    (above : hi ≤ hi') : Stands m lo' hi' e e' :=
  ⟨stands.aligned, Nat.le_trans below stands.above, Nat.le_trans stands.below above⟩

variable {nested : Parser Expression}

/-- A parser of expressions that is in step with itself. -/
def KeepsStep (m : Alignment) (nested : Parser Expression) : Prop :=
  ∀ c d, c.Aligned m d → InStep m nested nested c d (Stands m c.last.stop)

theorem arguments_inStep (keeps : KeepsStep m nested) (aligned : c.Aligned m d) :
    InStep m (arguments nested) (arguments nested) c d fun _ => List.Forall₂ (Expression.Aligned m.Spans) := by
  rw [arguments_eq]
  exact enclosed_inStep aligned fun c d aligned => (keeps c d aligned).imp fun _ _ _ _ stands => stands.aligned

theorem primary_inStep (keeps : KeepsStep m nested) : KeepsStep m (primary nested) := by
  intro c d aligned
  obtain ⟨spans, apart⟩ := aligned.here
  unfold primary
  apply InStep.get
  apply InStep.get
  rw [← aligned.next?_eq]
  split
  · apply (ident_inStep aligned).bind
    rintro i j c d aligned _ ⟨same, above, below⟩
    apply InStep.sees aligned
    · intro _
      simp only [↓reduceIte]
      apply (arguments_inStep keeps aligned).bind
      intro args args' c d aligned forth related
      apply InStep.get
      have below : i.span.stop ≤ c.last.stop := below ▸ forth
      exact .pure aligned ⟨.call same related (same.spans.upTo aligned.facing.lasts below), above, Nat.le_refl _⟩
    · simp only [Bool.false_eq_true, ↓reduceIte]
      exact .pure aligned ⟨.name same, above, Nat.le_of_eq below⟩
  · next head =>
    apply InStep.skip aligned head
    intro advanced _ last _
    exact .pure advanced ⟨.this spans, apart, by rw [last]; exact Nat.le_refl _⟩
  · next head =>
    apply InStep.skip aligned head
    intro advanced _ last _
    apply (dottedName_inStep advanced).bind
    rintro n k c' d' aligned forth ⟨same, _⟩
    apply (arguments_inStep keeps aligned).bind
    intro args args' c'' d'' aligned further related
    apply InStep.get
    have below : c.here.stop ≤ c''.last.stop := last ▸ Nat.le_trans forth further
    exact .pure aligned ⟨.new same.parts related (spans.upTo aligned.facing.lasts below), apart, Nat.le_refl _⟩
  · next head =>
    apply InStep.skip aligned head
    intro advanced forth _ _
    apply (keeps _ _ advanced).bind
    intro e e' c d aligned _ stands
    apply (InStep.expect aligned).bind
    intro _ _ c d aligned further _
    exact .pure aligned (stands.widen forth further)
  · next kind _ _ _ _ head =>
    split
    · next value found =>
      apply InStep.skip aligned head
      intro advanced _ last _
      exact .pure advanced ⟨.literal value spans, apart, by rw [last]; exact Nat.le_refl _⟩
    · exact .failExpected aligned
  · exact .failExpected aligned

/-! ### Chains and sums -/

variable {target target' : Expression} {lo : Nat}

theorem chainLink_inStep (keeps : KeepsStep m nested) (aligned : c.Aligned m d)
    (stands : Stands m lo c.last.stop target target') :
    InStep m (chainLink nested target) (chainLink nested target') c d fun hi => Option.Rel (Stands m lo hi) := by
  obtain ⟨targets, start, stop⟩ := stands
  apply InStep.accept aligned
  · intro c d aligned dot
    simp only [↓reduceIte]
    apply InStep.link aligned
    intro c d aligned counted
    apply (ident_inStep aligned).bind
    rintro i j c d aligned named ⟨same, above, below⟩
    have behind : target.stop ≤ i.span.start := by omega
    have ordered := same.spans.ordered
    apply InStep.sees aligned
    · intro _
      simp only [↓reduceIte]
      apply (arguments_inStep keeps aligned).bind
      intro args args' c d aligned closed related
      apply InStep.get
      have spans := targets.spans.upTo aligned.facing.lasts (show target.stop ≤ c.last.stop by omega)
      exact .pure aligned (.some ⟨.callOn targets same related spans, start, Nat.le_refl _⟩)
    · simp only [Bool.false_eq_true, ↓reduceIte]
      have spans := targets.spans.upTo same.spans.stops (show target.stop ≤ i.span.stop by omega)
      exact .pure aligned (.some ⟨.field targets same spans, start, Nat.le_of_eq below⟩)
  · simp only [Bool.false_eq_true, ↓reduceIte]
    exact .pure aligned .none

theorem chain_inStep (keeps : KeepsStep m nested) : KeepsStep m (chain nested) := by
  intro c d aligned
  apply (primary_inStep keeps c d aligned).bind
  intro e e' c' d' aligned _ stands
  apply InStep.iterate aligned stands (fun _ _ _ _ further stands => stands.widen (Nat.le_refl _) further)
  intro e e' c d aligned _ stands
  exact chainLink_inStep keeps aligned stands

theorem sumTerm_inStep (keeps : KeepsStep m nested) {left left' : Expression} (aligned : c.Aligned m d)
    (stands : Stands m lo c.last.stop left left') :
    InStep m (sumTerm nested left) (sumTerm nested left') c d fun hi => Option.Rel (Stands m lo hi) := by
  obtain ⟨lefts, start, stop⟩ := stands
  apply InStep.accept aligned
  · intro c d aligned plus
    simp only [↓reduceIte]
    apply InStep.link aligned
    intro c d aligned counted
    apply (chain_inStep keeps c d aligned).bind
    intro right right' c d aligned _ rights
    have ordered := rights.aligned.spans.ordered
    have begins := rights.above
    have behind : left.stop ≤ right.stop := by
      change right.start ≤ right.stop at ordered
      omega
    have spans := lefts.spans.upTo rights.aligned.spans.stops behind
    exact .pure aligned (.some ⟨.concat lefts rights.aligned spans, start, rights.below⟩)
  · simp only [Bool.false_eq_true, ↓reduceIte]
    exact .pure aligned .none

theorem sum_inStep (keeps : KeepsStep m nested) : KeepsStep m (sum nested) := by
  intro c d aligned
  apply (chain_inStep keeps c d aligned).bind
  intro e e' c' d' aligned _ stands
  apply InStep.iterate aligned stands (fun _ _ _ _ further stands => stands.widen (Nat.le_refl _) further)
  intro e e' c d aligned _ stands
  exact sumTerm_inStep keeps aligned stands

theorem expression_inStep (room : Nat) : KeepsStep m (expression room) := by
  induction room with
  | zero => exact fun c d aligned => .fail aligned
  | succ room ih => exact sum_inStep ih

end RouteDepot.RouteClass.Parser
