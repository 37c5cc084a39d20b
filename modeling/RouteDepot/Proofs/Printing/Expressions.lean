import RouteDepot.Proofs.Printing.Names

/-! # Reading expressions

The parser of chains reads a printed operand: it is inside the run of its loop behind every call and field of it, which
is shown along the receivers. The parser of sums reads a printed sum in the same way, along the left terms. What
stands in parentheses or between commas is nested, so the number of levels that may be opened carries the rest.
-/

namespace RouteDepot.RouteClass

/-- What an expression can begin with. -/
def TokenKind.beginsExpression : TokenKind → Bool
  | ident _ | str _ | char _ | int _ | mark .parenOpen => true
  | keyword word => word ∈ [.trueKw, .falseKw, .nullKw, .thisKw, .newKw]
  | mark _ => false

namespace Expression

theorem print_eq_cons : (e : Expression) → ∃ kind later, e.print = kind :: later ∧ kind.beginsExpression
  | literal value _ => ⟨value.print, [], by rw [print], by rcases value with _ | _ | _ | (_ | _) | _ <;> rfl⟩
  | name _ | this _ | call .. | new .. => by
    rw [print]
    exact ⟨_, _, rfl, rfl⟩
  | field target _ | callOn target _ _ _ => by
    rw [print, enclose]
    split
    · exact ⟨_, _, rfl, rfl⟩
    · obtain ⟨kind, later, printed, begins⟩ := print_eq_cons target
      exact ⟨kind, _, by rw [printed, List.cons_append], begins⟩
  | concat left _ => by
    obtain ⟨kind, later, printed, begins⟩ := print_eq_cons left
    exact ⟨kind, _, by rw [print, printed, List.cons_append], begins⟩

end Expression

namespace Parser

open Expression

/-- Tokens that do not go on with an expression. -/
abbrev Closed (rest : List TokenKind) : Prop := Avoids [.dot, .plus, .parenOpen] rest

/-- A parser reads the expressions that open a number of levels at most. -/
def ReadsTo (room : Nat) (nested : Parser Expression) : Prop :=
  ∀ e : Expression, e.WellFormed → e.depth ≤ room → Reads true nested e.print e.links Closed (·.erase = e.erase)

section Levels

variable {nested : Parser Expression} {room : Nat}

theorem ReadsTo.arguments_reads (reads : ReadsTo room nested) {args : List Expression} (wellFormed : AllWellFormed args)
    (shallow : depthAll args ≤ room) :
    Reads true (arguments nested) (printArguments (printAll args)) (linksAll args) Anything
      (eraseAll · = eraseAll args) := by
  rw [arguments_eq, printAll_eq_map, linksAll_eq_sum]
  refine (enclosed_reads Closed links (fun e read => read.erase = e.erase) ?_ ?_ ?_ rfl).mono (fun _ => id) ?_
  · intro e member
    exact reads e (wellFormed.of_mem member) (Nat.le_trans (depth_le_depthAll member) shallow)
  · intro sign closing rest
    simp only [List.mem_cons, List.not_mem_nil, or_false] at closing
    rcases closing with rfl | rfl <;> simp [Avoids]
  · intro e _ rest
    obtain ⟨kind, later, printed, begins⟩ := e.print_eq_cons
    rintro sign closing opened
    rw [printed, List.cons_append, List.head?_cons, Option.some.injEq] at opened
    rw [opened, List.mem_singleton.mp closing] at begins
    cases begins
  · intro read same
    rw [eraseAll_eq_map, eraseAll_eq_map, map_eq_of_forall₂ same]

/-! ### Primary expressions -/

theorem primary_reads_literal (value : Literal) (span : Span) :
    Reads true (primary nested) [value.print] 0 Anything (·.erase = (literal value span).erase) := by
  apply Passes.get
  intro here _ _ _
  apply Passes.next
  intro c head
  rw [head]
  rcases value with _ | _ | _ | (_ | _) | _
  all_goals
    apply Passes.skip
    exact .pure rfl

theorem primary_reads_name (ident : Ident) :
    Reads true (primary nested) [.ident ident.name] 0 (Avoids [.parenOpen]) (·.erase = (name ident).erase) := by
  apply Passes.get
  intro here _ _ _
  apply Passes.next
  intro c head
  rw [head]
  apply Passes.ident
  intro read named
  refine .sees_false (fun _ ends => ends .parenOpen List.mem_cons_self) (.pure ?_)
  simp only [erase, Ident.erase, named]

theorem primary_reads_this (span : Span) :
    Reads true (primary nested) [.keyword .thisKw] 0 Anything (·.erase = (this span).erase) := by
  apply Passes.get
  intro here _ _ _
  apply Passes.next
  intro c head
  rw [head]
  apply Passes.skip
  exact .pure rfl

theorem ReadsTo.primary_reads_call (reads : ReadsTo room nested) (callee : Ident) {args : List Expression} (span : Span)
    (wellFormed : AllWellFormed args) (shallow : depthAll args ≤ room) :
    Reads true (primary nested) (call callee args span).print (linksAll args) Anything
      (·.erase = (call callee args span).erase) := by
  have readsArguments := reads.arguments_reads wellFormed shallow
  rw [print]
  apply Passes.get
  intro here _ _ _
  apply Passes.next
  intro c head
  rw [head]
  apply Passes.ident
  intro read named
  apply Passes.sees_true
  apply readsArguments.bind_done
  intro list same
  apply Passes.get
  intro _ _ _ _
  apply Passes.pure
  simp only [erase, Ident.erase, named, same]

theorem ReadsTo.primary_reads_new (reads : ReadsTo room nested) {type : DottedName} {args : List Expression}
    (span : Span) (named : type.WellFormed) (wellFormed : AllWellFormed args) (shallow : depthAll args ≤ room) :
    Reads true (primary nested) (new type args span).print (linksAll args) Anything
      (·.erase = (new type args span).erase) := by
  have readsArguments := reads.arguments_reads wellFormed shallow
  have readsType : Reads true dottedName type.print 0 NotDotted (·.erase = type.erase) := dottedName_reads named
  rw [print]
  apply Passes.get
  intro here _ _ _
  apply Passes.next
  intro c head
  rw [head]
  apply Passes.skip
  refine readsType.bind ?_ ?_
  · intro read same
    apply readsArguments.bind_done
    intro list same'
    apply Passes.get
    intro _ _ _ _
    apply Passes.pure
    simp only [erase, same, same']
  · intro rest _
    exact .of_avoids (by simp [Avoids, printArguments, parenthesize])

theorem ReadsTo.primary_reads_parenthesized (reads : ReadsTo room nested) {e : Expression} (wellFormed : e.WellFormed)
    (shallow : e.depth ≤ room) :
    Reads true (primary nested) (parenthesize e.print) e.links Anything (·.erase = e.erase) := by
  apply Passes.get
  intro here _ _ _
  apply Passes.next
  intro c head
  rw [head]
  apply Passes.skip
  refine (reads e wellFormed shallow).bind_rest ?_ ?_
  · intro read same
    apply Passes.expect
    intro closing
    exact .pure same
  · intro rest _
    simp [Avoids]

/-! ### Chains -/

/-- A primary expression is the beginning of a chain. -/
theorem chain_passes {e : Expression} {printed : List TokenKind} {links : Nat} {follows : List TokenKind → Prop}
    (reads : Reads true (primary nested) printed links follows (·.erase = e.erase)) :
    Passes true (chain nested) printed links follows (iterateFrom (chainLink nested)) (·.erase = e.erase) := by
  apply reads.bind_done
  intro first same
  exact Passes.iterate.mono (fun _ _ => trivial) (fun _ read => read ▸ same)

theorem chainLink_reads_field (target : Expression) (member : Ident) :
    ∀ read : Expression, read.erase = target.erase →
      Reads true (chainLink nested read) [.mark .dot, .ident member.name] 1 (Avoids [.parenOpen])
        (fun r => ∃ more, r = some more ∧ more.erase = (field target member).erase) := by
  intro read same
  apply Passes.accept_true
  apply Passes.link
  apply Passes.ident
  intro i named
  refine .sees_false (fun _ ends => ends .parenOpen List.mem_cons_self) (.pure ⟨_, rfl, ?_⟩)
  simp only [erase, Ident.erase, named, same]

theorem ReadsTo.chainLink_reads_call (reads : ReadsTo room nested) (target : Expression) (callee : Ident)
    {args : List Expression} (span : Span) (wellFormed : AllWellFormed args) (shallow : depthAll args ≤ room) :
    ∀ read : Expression, read.erase = target.erase →
      Reads true (chainLink nested read) (.mark .dot :: .ident callee.name :: printArguments (printAll args))
        (linksAll args + 1) Anything
        (fun r => ∃ more, r = some more ∧ more.erase = (callOn target callee args span).erase) := by
  have readsArguments := reads.arguments_reads wellFormed shallow
  intro read same
  apply Passes.accept_true
  apply Passes.link
  apply Passes.ident
  intro i named
  apply Passes.sees_true
  apply readsArguments.bind_done
  intro list same'
  apply Passes.get
  intro _ _ _ _
  refine .pure ⟨_, rfl, ?_⟩
  simp only [erase, Ident.erase, named, same, same']

theorem chainLink_stops (read : Expression) : Reads true (chainLink nested read) [] 0 (Avoids [.dot]) (· = none) :=
  .accept_false (fun _ ends => ends .dot List.mem_cons_self) (.pure rfl)

/-- The parser of chains gets past a printed operand; the induction is along its receivers. -/
theorem ReadsTo.chain_passes_operand (reads : ReadsTo room nested) :
    (e : Expression) → e.WellFormed → e.nesting + e.isSum.toNat ≤ room →
      Passes true (chain nested) (e.enclose e.print) e.links (Avoids [.parenOpen]) (iterateFrom (chainLink nested))
        (·.erase = e.erase)
  | literal value span, _, _ => (chain_passes (primary_reads_literal value span)).anywhere
  | name ident, _, _ => chain_passes (primary_reads_name ident)
  | this span, _, _ => (chain_passes (primary_reads_this span)).anywhere
  | field target member, wellFormed, shallow => by
    have inside := reads.chain_passes_operand target wellFormed shallow
    exact inside.step (chainLink_reads_field target member) (List.cons_ne_nil _ _) (fun _ _ => by simp [Avoids])
  | call callee args span, wellFormed, shallow =>
    (chain_passes (reads.primary_reads_call callee span wellFormed shallow)).anywhere
  | callOn target callee args span, wellFormed, shallow => by
    obtain ⟨shallow, shallowArgs⟩ := Nat.max_le.mp shallow
    have inside := reads.chain_passes_operand target wellFormed.1 shallow
    have link := reads.chainLink_reads_call target callee span wellFormed.2 shallowArgs
    exact inside.step (fun read same => (link read same).anywhere) (List.cons_ne_nil _ _)
      (fun _ _ => by simp [Avoids])
  | new type args span, wellFormed, shallow =>
    (chain_passes (reads.primary_reads_new span wellFormed.1 wellFormed.2 shallow)).anywhere
  | concat left right, wellFormed, shallow =>
    (chain_passes (reads.primary_reads_parenthesized wellFormed shallow)).anywhere

theorem ReadsTo.chain_reads (reads : ReadsTo room nested) {e : Expression} (wellFormed : e.WellFormed)
    (shallow : e.nesting + e.isSum.toNat ≤ room) :
    Reads true (chain nested) (e.enclose e.print) e.links (Avoids [.dot, .parenOpen]) (·.erase = e.erase) := by
  have inside := reads.chain_passes_operand e wellFormed shallow
  refine inside.stop ?_ (fun _ ends => ends.of_subset (by simp))
  intro read _
  exact (chainLink_stops read).mono (fun _ ends => ends.of_subset (by simp)) fun _ => id

/-! ### Sums -/

theorem ReadsTo.sumTerm_reads (reads : ReadsTo room nested) {left right : Expression} (wellFormed : right.WellFormed)
    (shallow : right.nesting + right.isSum.toNat ≤ room) :
    ∀ read : Expression, read.erase = left.erase →
      Reads true (sumTerm nested read) (.mark .plus :: right.enclose right.print) (right.links + 1)
        (Avoids [.dot, .parenOpen]) (fun r => ∃ more, r = some more ∧ more.erase = (concat left right).erase) := by
  have readsTerm := reads.chain_reads wellFormed shallow
  intro read same
  apply Passes.accept_true
  apply Passes.link
  apply readsTerm.bind_done
  intro term same'
  refine .pure ⟨_, rfl, ?_⟩
  simp only [erase, same, same']

theorem sumTerm_stops (read : Expression) : Reads true (sumTerm nested read) [] 0 (Avoids [.plus]) (· = none) :=
  .accept_false (fun _ ends => ends .plus List.mem_cons_self) (.pure rfl)

theorem ReadsTo.sum_passes_term (reads : ReadsTo room nested) {e : Expression} (single : e.isSum = false)
    (wellFormed : e.WellFormed) (shallow : e.nesting ≤ room) :
    Passes true (sum nested) e.print e.links (Avoids [.dot, .parenOpen]) (iterateFrom (sumTerm nested))
      (·.erase = e.erase) := by
  have readsTerm := reads.chain_reads wellFormed (by rwa [single, Bool.toNat_false, Nat.add_zero])
  rw [enclose, single] at readsTerm
  apply readsTerm.bind_done
  intro first same
  exact Passes.iterate.mono (fun _ _ => trivial) (fun _ read => read ▸ same)

/-- The parser of sums gets past a printed expression; the induction is along the left terms. -/
theorem ReadsTo.sum_passes (reads : ReadsTo room nested) (e : Expression) (wellFormed : e.WellFormed)
    (shallow : e.nesting ≤ room) :
    Passes true (sum nested) e.print e.links (Avoids [.dot, .parenOpen]) (iterateFrom (sumTerm nested))
      (·.erase = e.erase) := by
  match e with
  | concat left right =>
    obtain ⟨shallowLeft, shallow⟩ := Nat.max_le.mp shallow
    have inside := reads.sum_passes left wellFormed.1 shallowLeft
    exact inside.step (reads.sumTerm_reads wellFormed.2 shallow) (List.cons_ne_nil _ _) (fun _ _ => by simp [Avoids])
  | literal .. | name _ | this _ | field .. | call .. | callOn .. | new .. =>
    exact reads.sum_passes_term rfl wellFormed shallow

end Levels

/-- The parser of expressions reads what opens no more levels than it may. -/
theorem expression_readsTo (room : Nat) : ReadsTo room (expression room) := by
  induction room with
  | zero => exact fun e _ shallow => absurd shallow (Nat.not_succ_le_zero _)
  | succ room ih =>
    intro e wellFormed shallow
    have inside := ih.sum_passes e wellFormed (Nat.le_of_succ_le_succ shallow)
    refine inside.stop ?_ (fun _ ends => ends.of_subset (by simp))
    intro read _
    exact (sumTerm_stops read).mono (fun _ ends => ends.of_subset (by simp)) fun _ => id

end Parser

end RouteDepot.RouteClass
