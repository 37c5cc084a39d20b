import RouteDepot.Proofs.Printing.Limits
import RouteDepot.Proofs.Printing.Names

/-! # Counting links

Within a statement a parser counts the links that it reads, and fails beyond the limit. So what it yields has as many
links as were counted on the way. Expressions are nested no deeper than the levels that their parser may open, by
induction on that number: parentheses open a level as well, whether or not the tree shows them.
-/

namespace RouteDepot.RouteClass.Parser

variable {α β : Type} {means : α → Nat → Prop}

/-- From a cursor within the limit of links, what is yielded has a given relation to the links counted on the way, and
the cursor stays within the limit. -/
def Weighs (p : Parser α) (means : α → Nat → Prop) : Prop :=
  ∀ c : Cursor, c.links ≤ linkLimit → ∀ a after, p.run.run c = (.ok a, after) →
    after.links ≤ linkLimit ∧ ∃ n, after.links = c.links + n ∧ means a n

namespace Weighs

/-! ### Rules -/

theorem mono {p : Parser α} {meant : α → Nat → Prop} (weighs : Weighs p meant)
    (implies : ∀ a n, meant a n → means a n) : Weighs p means := by
  intro c within a after ran
  obtain ⟨within, n, counted, holds⟩ := weighs c within a after ran
  exact ⟨within, n, counted, implies a n holds⟩

theorem pure {a : α} (holds : means a 0) : Weighs (pure a) means := by
  intro c within b after ran
  obtain ⟨same, rfl⟩ := Prod.mk.inj ran
  obtain rfl := Except.ok.inj same
  exact ⟨within, 0, rfl, holds⟩

theorem bind {first : Parser β} {next : β → Parser α} {meant : β → Nat → Prop} (weighs : Weighs first meant)
    (later : ∀ b n, meant b n → Weighs (next b) fun a m => means a (n + m)) : Weighs (first >>= next) means := by
  intro c within a after ran
  rw [ExceptT.run_bind_state] at ran
  rcases result : first.run.run c with ⟨_ | b, middle⟩
  · rw [result] at ran
    cases (Prod.mk.inj ran).1
  · rw [result] at ran
    obtain ⟨withinMiddle, n, counted, holds⟩ := weighs c within b middle result
    obtain ⟨withinAfter, m, counted', holds'⟩ := later b n holds middle withinMiddle a after ran
    exact ⟨withinAfter, n + m, by rw [counted', counted, Nat.add_assoc], holds'⟩

/-- A step that throws yields nothing. -/
theorem failExpected {what : String} : Weighs (failExpected what) means := nofun

theorem fail {fault : SyntaxFault} : Weighs (fail fault) means := nofun

theorem throws {first : Parser β} {next : β → Parser α} (weighs : Weighs first fun _ _ => False) :
    Weighs (first >>= next) means :=
  weighs.bind fun _ _ => False.elim

theorem get {next : Cursor → Parser α} (later : ∀ c, Weighs (next c) means) :
    Weighs (MonadState.get >>= next) means := by
  intro c within a after ran
  exact later c c within a after ((ExceptT.run_bind_state _ _ _).symm.trans ran)

/-! ### Single tokens -/

theorem skip {next : Unit → Parser α} (later : Weighs (next ()) means) : Weighs (skip >>= next) means := by
  intro c within a after ran
  rw [← Cursor.links_advance c] at within ⊢
  exact later c.advance within a after ((ExceptT.run_bind_state _ _ _).symm.trans ran)

theorem sees {kind : TokenKind} {next : Bool → Parser α} (later : ∀ b, Weighs (next b) means) :
    Weighs (sees kind >>= next) means := by
  rw [Parser.sees, bind_assoc]
  exact get fun c => by
    rw [pure_bind]
    exact later _

theorem accept {kind : TokenKind} {next : Bool → Parser α} (present : Weighs (next true) means)
    (absent : Weighs (next false) means) : Weighs (accept kind >>= next) means := by
  rw [Parser.accept, bind_assoc]
  apply sees
  intro b
  cases b with
  | true => simpa only [↓reduceIte, bind_assoc, pure_bind] using skip present
  | false => simpa only [Bool.false_eq_true, ↓reduceIte, pure_bind] using absent

theorem expect {kind : TokenKind} {what : String} {next : Span → Parser α} (later : ∀ span, Weighs (next span) means) :
    Weighs (expect kind what >>= next) means := by
  rw [Parser.expect, bind_assoc]
  apply accept
  · simp only [↓reduceIte, bind_assoc, pure_bind]
    exact get fun c => later c.last
  · exact throws failExpected

theorem ident {next : Ident → Parser α} (later : ∀ i, Weighs (next i) means) : Weighs (ident >>= next) means := by
  rw [Parser.ident, bind_assoc]
  apply get
  intro c
  split
  · simp only [bind_assoc, pure_bind]
    exact skip (get fun _ => later _)
  · exact throws failExpected

/-- A link counts one. -/
theorem link {next : Unit → Parser α} (later : Weighs (next ()) fun a n => means a (n + 1)) :
    Weighs (link >>= next) means := by
  intro c within a after ran
  have counted : Parser.link.run.run c = (if c.links + 1 > linkLimit then Parser.fail .expressionTooLong else Pure.pure () :
      Parser Unit).run.run { c with links := c.links + 1 } := rfl
  rw [ExceptT.run_bind_state, counted] at ran
  by_cases many : c.links + 1 > linkLimit
  · rw [if_pos many] at ran
    cases (Prod.mk.inj ran).1
  · rw [if_neg many] at ran
    obtain ⟨withinAfter, n, counted, holds⟩ := later { c with links := c.links + 1 } (Nat.not_lt.mp many) a after ran
    exact ⟨withinAfter, n + 1, by rw [counted, Nat.add_assoc, Nat.add_comm 1], holds⟩

/-! ### Loops -/

variable {step : α → Parser (Option α)}

theorem iterateFrom {inside : α → Nat → Prop}
    (weighs : ∀ value n, inside value n → Weighs (step value) fun r m => r.elim (m = 0) fun next => inside next (n + m))
    (value : α) (c : Cursor) (within : c.links ≤ linkLimit) {n : Nat} (start : inside value n) {a : α} {after : Cursor}
    (ran : iterateFrom step value c = (.ok a, after)) :
    after.links ≤ linkLimit ∧ ∃ m, after.links = c.links + m ∧ inside a (n + m) := by
  fun_induction Parser.iterateFrom step value c generalizing n with
  | case1 => cases (Prod.mk.inj ran).1
  | case2 value c _ stopped =>
    obtain ⟨same, rfl⟩ := Prod.mk.inj ran
    obtain rfl := Except.ok.inj same
    obtain ⟨withinAfter, m, counted, none⟩ := weighs value n start c within _ _ stopped
    obtain rfl : m = 0 := none
    exact ⟨withinAfter, 0, counted, start⟩
  | case3 value c next middle stepped _ ih =>
    obtain ⟨withinMiddle, m, counted, further⟩ := weighs value n start c within _ _ stepped
    obtain ⟨withinAfter, k, counted', holds⟩ := ih withinMiddle further ran
    exact ⟨withinAfter, m + k, by rw [counted', counted, Nat.add_assoc], by rwa [← Nat.add_assoc]⟩
  | case4 value c next middle stepped _ =>
    obtain ⟨same, rfl⟩ := Prod.mk.inj ran
    obtain rfl := Except.ok.inj same
    exact weighs value n start c within _ _ stepped

/-- A loop keeps what holds of its value and of the links counted so far. -/
theorem iterate {value : α} {inside : α → Nat → Prop} (start : inside value 0)
    (weighs : ∀ value n, inside value n →
      Weighs (step value) fun r m => r.elim (m = 0) fun next => inside next (n + m)) :
    Weighs (iterate step value) inside := by
  intro c within a after ran
  obtain ⟨withinAfter, n, counted, holds⟩ := iterateFrom weighs value c within start ran
  exact ⟨withinAfter, n, counted, by rwa [Nat.zero_add] at holds⟩

/-- A loop that goes on from what a step yields. -/
theorem bind_iterate {first : Parser β} {f : β → α} {inside : α → Nat → Prop}
    (starts : Weighs first fun b => inside (f b))
    (weighs : ∀ value n, inside value n →
      Weighs (step value) fun r m => r.elim (m = 0) fun next => inside next (n + m)) :
    Weighs (first >>= fun b => Parser.iterate step (f b)) inside := by
  apply starts.bind
  intro b n start
  have loops : Weighs (Parser.iterate step (f b)) fun a m => inside a (n + m) := by
    refine iterate start ?_
    intro value m holds
    apply (weighs value (n + m) holds).mono
    rintro (_ | next) k further
    · exact further
    · rwa [Option.elim_some, ← Nat.add_assoc]
  exact loops

end Weighs

/-! ### Names -/

/-- The dots of a name are no links. -/
theorem dottedName_weighs : Weighs dottedName fun _ n => n = 0 := by
  have loops (first : Ident) : Weighs (iterate furtherPart [first.name]) fun _ n => n = 0 := by
    refine .iterate rfl ?_
    rintro parts _ rfl
    apply Weighs.get
    intro c
    split
    · exact .skip (.ident fun _ => .pure rfl)
    · exact .pure rfl
  rw [dottedName_eq]
  apply Weighs.ident
  intro first
  apply (loops first).bind
  rintro parts _ rfl
  exact .get fun _ => .pure rfl

/-! ### Expressions -/

open Expression

/-- Expressions with a count of links that open a number of levels at most. -/
abbrev Measured (room : Nat) (e : Expression) (n : Nat) : Prop := e.links = n ∧ e.depth ≤ room

/-- Expressions with a count of links that open a number of levels at most where a sum stands in parentheses. -/
abbrev MeasuredAsOperand (room : Nat) (e : Expression) (n : Nat) : Prop :=
  e.links = n ∧ e.nesting + e.isSum.toNat ≤ room

variable {room : Nat}

theorem Measured.asOperand {e : Expression} {n : Nat} (measured : Measured room e n) : MeasuredAsOperand room e n :=
  ⟨measured.1, Nat.le_trans (Nat.add_le_add_left e.isSum.toNat_le _) measured.2⟩

/-- Lists of expressions, with their links together. -/
abbrev MeasuredAll (room : Nat) (list : List Expression) (n : Nat) : Prop := linksAll list = n ∧ depthAll list ≤ room

theorem MeasuredAll.concat {list : List Expression} {e : Expression} {n m : Nat} (first : MeasuredAll room list n)
    (last : Measured room e m) : MeasuredAll room (list ++ [e]) (n + m) := by
  obtain ⟨rfl, shallow⟩ := first
  obtain ⟨rfl, shallow'⟩ := last
  refine ⟨by simp [linksAll_eq_sum], ?_⟩
  induction list with
  | nil => exact Nat.max_le.mpr ⟨shallow', Nat.zero_le _⟩
  | cons head later ih =>
    obtain ⟨one, others⟩ := Nat.max_le.mp shallow
    exact Nat.max_le.mpr ⟨one, ih others⟩

variable {nested : Parser Expression} (weighs : Weighs nested (Measured room))

include weighs

theorem commaSeparated_weighs : Weighs (commaSeparated nested) (MeasuredAll room) := by
  rw [commaSeparated_eq]
  apply Weighs.bind_iterate
  · exact weighs.mono fun e n measured => ⟨measured.1, Nat.max_le.mpr ⟨measured.2, Nat.zero_le _⟩⟩
  · intro done n measured
    apply Weighs.accept
    · simp only [↓reduceIte]
      apply weighs.bind
      intro e m last
      exact .pure (measured.concat last)
    · exact .pure rfl

theorem arguments_weighs : Weighs (arguments nested) (MeasuredAll room) := by
  apply Weighs.expect
  intro opening
  apply Weighs.sees
  rintro (_ | _)
  · simp only [Bool.false_eq_true, ↓reduceIte]
    apply (commaSeparated_weighs weighs).bind
    intro list n measured
    exact .expect fun _ => .pure measured
  · simp only [↓reduceIte, pure_bind]
    exact .expect fun _ => .pure ⟨rfl, Nat.zero_le _⟩

theorem primary_weighs : Weighs (primary nested) (MeasuredAsOperand room) := by
  apply Weighs.get
  intro here
  apply Weighs.get
  intro c
  split
  · apply Weighs.ident
    intro name
    apply Weighs.sees
    rintro (_ | _)
    · exact .pure ⟨rfl, Nat.zero_le _⟩
    · apply (arguments_weighs weighs).bind
      intro args n measured
      exact .get fun _ => .pure measured
  · exact .skip (.pure ⟨rfl, Nat.zero_le _⟩)
  · apply Weighs.skip
    apply dottedName_weighs.bind
    rintro type _ rfl
    apply (arguments_weighs weighs).bind
    intro args n measured
    refine .get fun _ => .pure ?_
    rwa [Nat.add_zero, Nat.zero_add]
  · apply Weighs.skip
    apply weighs.bind
    intro e n measured
    exact .expect fun _ => .pure measured.asOperand
  · split
    · exact .skip (.pure ⟨rfl, Nat.zero_le _⟩)
    · exact .failExpected
  · exact .failExpected

theorem chain_weighs : Weighs (chain nested) (MeasuredAsOperand room) := by
  refine .bind_iterate (f := id) (primary_weighs weighs) ?_
  rintro target n ⟨rfl, shallow⟩
  apply Weighs.accept
  · simp only [↓reduceIte]
    apply Weighs.link
    apply Weighs.ident
    intro name
    apply Weighs.sees
    rintro (_ | _)
    · exact .pure ⟨rfl, shallow⟩
    · apply (arguments_weighs weighs).bind
      rintro args m ⟨rfl, shallowArgs⟩
      exact .get fun _ => .pure ⟨rfl, Nat.max_le.mpr ⟨shallow, shallowArgs⟩⟩
  · exact .pure rfl

theorem sum_weighs : Weighs (sum nested) fun e n => e.links = n ∧ e.nesting ≤ room := by
  refine .bind_iterate (f := id) ?_ ?_
  · exact (chain_weighs weighs).mono fun e n measured => ⟨measured.1, Nat.le_of_add_right_le measured.2⟩
  · rintro left n ⟨rfl, shallow⟩
    apply Weighs.accept
    · simp only [↓reduceIte]
      apply Weighs.link
      apply (chain_weighs weighs).bind
      rintro right m ⟨rfl, shallowRight⟩
      exact .pure ⟨rfl, Nat.max_le.mpr ⟨shallow, shallowRight⟩⟩
    · exact .pure rfl

omit weighs

theorem expression_weighs (room : Nat) : Weighs (expression room) (Measured room) := by
  induction room with
  | zero => exact .fail
  | succ room ih => exact (sum_weighs ih).mono fun e n measured => ⟨measured.1, Nat.succ_le_succ measured.2⟩

end RouteDepot.RouteClass.Parser
