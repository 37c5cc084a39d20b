import Mathlib.Data.List.Forall2
import RouteDepot.Proofs.Results
import RouteDepot.RouteClass.Parsing.Cursor

/-! # Sources with the same tokens

Two sources may have the same tokens in different places. An alignment says which byte offsets of the two belong
together. Cursors are aligned when the tokens ahead are the same in places that belong together, and so are the faults
recorded; skipping tokens keeps them aligned. A source may also be aligned with itself, which says of every place that
a cursor knows what is known of the places of the tokens.
-/

/-- Two results that are related values or related errors. -/
inductive Except.Rel {ε δ α β : Type} (E : ε → δ → Prop) (V : α → β → Prop) : Except ε α → Except δ β → Prop
  | ok {a : α} {b : β} (values : V a b) : Rel E V (.ok a) (.ok b)
  | error {e : ε} {d : δ} (errors : E e d) : Rel E V (.error e) (.error d)

theorem List.Forall₂.isEmpty_eq {α β : Type} {R : α → β → Prop} {items : List α} {others : List β}
    (related : List.Forall₂ R items others) : items.isEmpty = others.isEmpty := by
  cases related <;> rfl

namespace RouteDepot

/-- The same finding in places that are related. -/
def Finding.Alike {Cause : Type} (R : Span → Span → Prop) (f g : Finding Cause) : Prop :=
  f.cause = g.cause ∧ R f.span g.span

namespace RouteClass

/-- Which offsets of two sources belong together where something begins, and where something ends. -/
structure Alignment where
  starts : Nat → Nat → Prop
  stops : Nat → Nat → Prop

/-- Spans of two sources that belong together; the first one ends where it begins or later. -/
structure Alignment.Spans (m : Alignment) (s t : Span) : Prop where
  starts : m.starts s.start t.start
  stops : m.stops s.stop t.stop
  ordered : s.start ≤ s.stop

/-- From the beginning of a span up to an offset behind it. -/
theorem Alignment.Spans.upTo {m : Alignment} {s t : Span} {stop stop' : Nat} (spans : m.Spans s t)
    (stops : m.stops stop stop') (below : s.stop ≤ stop) : m.Spans ⟨s.start, stop⟩ ⟨t.start, stop'⟩ :=
  ⟨spans.starts, stops, Nat.le_trans spans.ordered below⟩

variable {m : Alignment} {stop stop' last last' : Span} {ahead ahead' : List Token}

/-! ### Tokens ahead -/

/-- Tokens ahead and the bytes read last, in two sources that end at `stop` and `stop'`. The tokens of the first source
follow each other without overlap. -/
inductive Facing (m : Alignment) (stop stop' : Span) : Span → List Token → Span → List Token → Prop
  | nil {last last' : Span} (lasts : m.stops last.stop last'.stop) (stops : m.Spans stop stop')
    (apart : last.stop ≤ stop.start) : Facing m stop stop' last [] last' []
  | cons {last last' span span' : Span} {kind : TokenKind} {later later' : List Token}
    (lasts : m.stops last.stop last'.stop) (spans : m.Spans span span') (apart : last.stop ≤ span.start)
    (more : Facing m stop stop' span later span' later') :
    Facing m stop stop' last (⟨kind, span⟩ :: later) last' (⟨kind, span'⟩ :: later')

namespace Facing

theorem lasts (facing : Facing m stop stop' last ahead last' ahead') : m.stops last.stop last'.stop := by
  cases facing with
  | nil lasts => exact lasts
  | cons lasts => exact lasts

theorem kinds_eq (facing : Facing m stop stop' last ahead last' ahead') :
    ahead.map Token.kind = ahead'.map Token.kind := by
  induction facing with
  | nil => rfl
  | cons _ _ _ _ ih => rw [List.map_cons, List.map_cons, ih]

theorem length_eq (facing : Facing m stop stop' last ahead last' ahead') : ahead.length = ahead'.length := by
  simpa using congrArg List.length facing.kinds_eq

/-- Tokens that are reached by moving on: they are aligned, and nothing was read backwards. -/
def Reaches (m : Alignment) (stop stop' last : Span) (reached reached' : List Token × Span) : Prop :=
  Facing m stop stop' reached.2 reached.1 reached'.2 reached'.1 ∧ last.stop ≤ reached.2.stop

theorem Reaches.cons {span : Span} {reached reached' : List Token × Span} (spans : m.Spans span span')
    (apart : last.stop ≤ span.start) (more : Reaches m stop stop' span reached reached') :
    Reaches m stop stop' last reached reached' :=
  ⟨more.1, Nat.le_trans apart (Nat.le_trans spans.ordered more.2)⟩

theorem skipMember (facing : Facing m stop stop' last ahead last' ahead') (depth : Nat) :
    Reaches m stop stop' last (RouteClass.skipMember depth ahead last)
      (RouteClass.skipMember depth ahead' last') := by
  induction facing generalizing depth with
  | nil lasts stops apart => exact ⟨.nil lasts stops apart, Nat.le_refl _⟩
  | @cons last last' span span' kind later later' lasts spans apart more ih =>
    have on (depth : Nat) := (ih depth).cons spans apart
    have here : Reaches m stop stop' last (later, span) (later', span') :=
      Reaches.cons spans apart ⟨more, Nat.le_refl _⟩
    unfold RouteClass.skipMember
    dsimp only
    split
    · split
      · exact here
      · exact on depth
    · exact on _
    · split
      · exact ⟨.cons lasts spans apart more, Nat.le_refl _⟩
      · exact here
      · exact on _
    · exact on _

theorem skipDeclaration (facing : Facing m stop stop' last ahead last' ahead') (depth : Nat) :
    Reaches m stop stop' last (RouteClass.skipDeclaration depth ahead last)
      (RouteClass.skipDeclaration depth ahead' last') := by
  induction facing generalizing depth with
  | nil lasts stops apart => exact ⟨.nil lasts stops apart, Nat.le_refl _⟩
  | @cons last last' span span' kind later later' lasts spans apart more ih =>
    have on (depth : Nat) := (ih depth).cons spans apart
    have here : Reaches m stop stop' last (later, span) (later', span') :=
      Reaches.cons spans apart ⟨more, Nat.le_refl _⟩
    unfold RouteClass.skipDeclaration
    dsimp only
    split
    · split
      · exact here
      · exact on depth
    · exact on _
    · split
      · exact here
      · exact here
      · exact on _
    · exact on _

theorem skipParens? (facing : Facing m stop stop' last ahead last' ahead') (depth : Nat) :
    Option.Rel (Reaches m stop stop' last) (RouteClass.skipParens? depth ahead)
      (RouteClass.skipParens? depth ahead') := by
  induction facing generalizing depth with
  | nil => exact .none
  | @cons last last' span span' kind later later' lasts spans apart more ih =>
    have on (depth : Nat) : Option.Rel (Reaches m stop stop' last) (RouteClass.skipParens? depth later)
        (RouteClass.skipParens? depth later') :=
      (ih depth).imp fun _ _ reaches => reaches.cons spans apart
    unfold RouteClass.skipParens?
    dsimp only
    split
    · exact on _
    · split
      · exact .some (Reaches.cons spans apart ⟨more, Nat.le_refl _⟩)
      · exact on _
    · exact on _

/-- Moving past all tokens. -/
theorem skipAll (facing : Facing m stop stop' last ahead last' ahead') :
    Reaches m stop stop' last ([], (ahead.getLast?.map Token.span).getD last)
      ([], (ahead'.getLast?.map Token.span).getD last') := by
  induction facing with
  | nil lasts stops apart => exact ⟨.nil lasts stops apart, Nat.le_refl _⟩
  | @cons last last' span span' kind later later' lasts spans apart more ih =>
    have shape (token : Token) (later : List Token) (before : Span) :
        ((token :: later).getLast?.map Token.span).getD before = (later.getLast?.map Token.span).getD token.span := by
      cases later <;> rfl
    rw [shape, shape]
    exact ih.cons spans apart

end Facing

/-! ### Cursors -/

/-- Cursors at the same token of two sources, with the same faults. -/
structure Cursor.Aligned (m : Alignment) (c d : Cursor) : Prop where
  facing : Facing m c.stop d.stop c.last c.ahead d.last d.ahead
  links : c.links = d.links
  faults : List.Forall₂ (Finding.Alike m.Spans) c.faults d.faults

/-- Moving on keeps cursors aligned and leads no cursor back. -/
def MovesAligned (m : Alignment) (moveOn : Cursor → Cursor) : Prop :=
  ∀ c d : Cursor, c.Aligned m d → (moveOn c).Aligned m (moveOn d) ∧ c.last.stop ≤ (moveOn c).last.stop

namespace Cursor.Aligned

variable {c d : Cursor}

theorem next?_eq (aligned : c.Aligned m d) : c.next? = d.next? := by
  have kinds := aligned.facing.kinds_eq
  rw [next?, next?, ← List.head?_map, ← List.head?_map, kinds]

/-- A fault at the cursor is reported at places that belong together, and behind what was read. -/
theorem here (aligned : c.Aligned m d) : m.Spans c.here d.here ∧ c.last.stop ≤ c.here.start := by
  obtain ⟨facing, _, _⟩ := aligned
  unfold Cursor.here
  generalize c.ahead = ahead, d.ahead = ahead' at facing
  cases facing with
  | nil _ stops apart => exact ⟨stops, apart⟩
  | cons _ spans apart => exact ⟨spans, apart⟩

/-- Moving past the next token: its bytes are those read last. -/
theorem advance (aligned : c.Aligned m d) {kind : TokenKind} (head : c.next? = some kind) :
    c.advance.Aligned m d.advance ∧ c.advance.last = c.here ∧ d.advance.last = d.here := by
  obtain ⟨ahead, stop, last, links, faults⟩ := c
  obtain ⟨ahead', stop', last', links', faults'⟩ := d
  obtain ⟨facing, sameLinks, sameFaults⟩ := aligned
  dsimp only at facing
  cases facing with
  | nil => cases head
  | cons _ _ _ more => exact ⟨⟨more, sameLinks, sameFaults⟩, rfl, rfl⟩

/-- Moving on to other tokens. -/
theorem moveTo (aligned : c.Aligned m d) {reached reached' : List Token × Span}
    (reaches : Facing.Reaches m c.stop d.stop c.last reached reached') :
    Cursor.Aligned m { c with ahead := reached.1, last := reached.2 }
      { d with ahead := reached'.1, last := reached'.2 } :=
  ⟨reaches.1, aligned.links, aligned.faults⟩

end Cursor.Aligned

end RouteClass

end RouteDepot
