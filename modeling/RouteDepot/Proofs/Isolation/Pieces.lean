import RouteDepot.Proofs.Isolation.Statements
import RouteDepot.Proofs.Isolation.Taking

/-! # The pieces of a body

A piece is what stands in a body up to a semicolon: a statement, or tokens that form none. Its outcome, a value or a
fault, depends on its own tokens only. A faulty piece is skipped up to its own semicolon, so a body has the statements
of its good pieces and the faults of its bad ones, both in order.
-/

namespace RouteDepot.RouteClass

/-- Tokens without semicolons and braces, and the bytes of the semicolon behind them. -/
structure Piece where
  front : List Token
  semicolon : Span
  plain : Plain front

/-- Recovery gets past the next semicolon when no brace stands before it. -/
theorem skipMember_plain {front : List Token} (plain : Plain front) (semicolon : Span) (later : List Token)
    (last : Span) : skipMember 0 (front ++ ⟨.mark .semicolon, semicolon⟩ :: later) last = (later, semicolon) := by
  induction front generalizing last with
  | nil => rfl
  | cons token front ih =>
    have differs : token.kind.IsPlain := plain token List.mem_cons_self
    have skipped := ih (fun t among => plain t (List.mem_cons_of_mem _ among)) token.span
    rw [List.cons_append, skipMember]
    split
    · next semicolon => exact absurd semicolon (differs _ (by simp))
    · next opening => exact absurd opening (differs _ (by simp))
    · next closing => exact absurd closing (differs _ (by simp))
    · exact skipped

/-- Behind a fault in front of the semicolon, recovery goes on in the lane. -/
theorem Lanes.Before.ahead_afterMember {l : Lanes} {c d : Cursor} (before : l.Before c d)
    (faults : List (Finding SyntaxFault)) : { c with faults }.afterMember.ahead = l.left.ahead := by
  obtain ⟨front, plain, abreast⟩ := before
  rw [Cursor.afterMember]
  dsimp only
  rw [abreast.left, through, List.append_assoc, List.singleton_append, skipMember_plain plain]

namespace Parser

/-- The levels that are left to the statements in the body of a member. -/
def bodyLevels : Nat := nestingLimit - 1

/-- A statement in the body of a member. -/
def memberStatement : Parser Statement := statement (expression bodyLevels) (block bodyLevels)

theorem block_nestingLimit : block nestingLimit = braced (expression bodyLevels) (block bodyLevels) := rfl

end Parser

namespace Piece

variable (p : Piece)

def tokens : List Token := p.front ++ [⟨.mark .semicolon, p.semicolon⟩]

/-- The statement that a piece is on its own, or the fault that it has. -/
def outcome : Except (Finding SyntaxFault) Statement :=
  (Parser.memberStatement.run.run { ahead := p.tokens, stop := ⟨0, 0⟩ }).1

/-- The fault of a piece, if it is no statement. -/
def faults : List (Finding SyntaxFault) :=
  match p.outcome with
  | .ok _ => []
  | .error fault => [fault]

/-- The statement of a piece, if it is one. -/
def statements : List Statement := p.outcome.toOption.toList

theorem flatMap_faults {pieces : List Piece} {statements : List Statement}
    (formed : List.Forall₂ (fun p s => p.outcome = .ok s) pieces statements) : pieces.flatMap faults = [] := by
  induction formed with
  | nil => rfl
  | cons first _ ih => simp [faults, first, ih]

theorem flatMap_statements {pieces : List Piece} {formedAs : List Statement}
    (formed : List.Forall₂ (fun p s => p.outcome = .ok s) pieces formedAs) : pieces.flatMap statements = formedAs := by
  induction formed with
  | nil => rfl
  | cons first _ ih => simp [statements, first, ih, Except.toOption]

theorem tokens_ne_nil : p.tokens ≠ [] := by simp [tokens]

/-- A body does not end in front of a piece. -/
theorem head_ne_braceClose (later : List Token) :
    ((p.tokens ++ later).map (·.kind)).head? ≠ some (.mark .braceClose) := by
  rw [tokens, List.append_assoc]
  rcases front : p.front with _ | ⟨token, others⟩
  · simp
  · exact fun closes => p.plain token (by simp [front]) .braceClose (by simp) (Option.some.inj closes)

/-- A piece in front of given tokens, and the same piece on its own. -/
def lanes (c : Cursor) (later : List Token) : Lanes :=
  ⟨p.semicolon, { c with ahead := later }, { ahead := [], stop := ⟨0, 0⟩ }⟩

end Piece

namespace Parser

variable {later : List Token}

/-- Wherever a piece stands, it has the same outcome, and recovery goes on behind it. -/
theorem recover_takes (p : Piece) :
    Takes (recover memberStatement Cursor.afterMember) p.tokens later p.faults (·.toList = p.statements) := by
  intro c ahead
  let alone : Cursor := { ahead := p.tokens, stop := ⟨0, 0⟩ }
  have before : (p.lanes c later).Before { c with links := 0 } alone :=
    ⟨p.front, p.plain, ⟨ahead, (List.append_nil _).symm, ⟨rfl, rfl⟩, ⟨rfl, rfl⟩, rfl⟩⟩
  have agree : Agree (p.lanes c later) (p.lanes c later).Past (memberStatement.run.run c) (memberStatement.run.run alone) :=
    statement_alongside (expression_alongside bodyLevels) before
  unfold Piece.faults Piece.statements Piece.outcome
  generalize ran : memberStatement.run.run c = r, memberStatement.run.run { ahead := p.tokens, stop := ⟨0, 0⟩ } = s
    at agree ⊢
  cases agree with
  | @ok statement after _ past =>
    refine ⟨some statement, after, recover_run ran, ⟨?_, past.1.stops.1, ?_⟩, rfl⟩
    · rw [ahead, past.1.left]
      rfl
    · exact past.1.faults.1.trans (List.append_nil _).symm
  | @error fault after _ before =>
    refine ⟨none, _, recover_run_error ran, ⟨?_, ?_, ?_⟩, rfl⟩
    · rw [before.ahead_afterMember]
      exact ahead
    · exact before.choose_spec.2.stops.1
    · exact congrArg (· ++ [fault]) before.choose_spec.2.faults.1

theorem bodyStatement_takes (p : Piece) (done : List Statement) :
    Takes (bodyStatement (expression bodyLevels) (block bodyLevels) done) p.tokens later p.faults
      (· = some (done ++ p.statements)) := by
  rw [bodyStatement]
  refine .bodyEnds_false p.tokens_ne_nil (p.head_ne_braceClose later) ?_
  refine (recover_takes p).bind_done fun read same => .pure ?_
  rw [same]

/-- A body of pieces has their statements and their faults in order. -/
theorem body_takes (pieces : List Piece) (done : List Statement)
    (ends : (later.map (·.kind)).head? = some (.mark .braceClose)) :
    Takes (iterate (bodyStatement (expression bodyLevels) (block bodyLevels)) done) (pieces.flatMap Piece.tokens) later
      (pieces.flatMap Piece.faults) (· = done ++ pieces.flatMap Piece.statements) := by
  induction pieces generalizing done with
  | nil => exact .iterate_done (.bodyEnds_true ends (.pure rfl)) (List.append_nil done).symm
  | cons p pieces ih =>
    refine .iterate_more ((bodyStatement_takes p done).mono fun _ same => ⟨_, same, rfl⟩) p.tokens_ne_nil ?_
    rintro _ rfl
    refine (ih _).mono fun _ same => ?_
    rw [same, List.flatMap_cons, List.append_assoc]

/-- The block of a member is a body of pieces between braces. -/
theorem block_takes (later : List Token) (pieces : List Piece) (opening closing : Span) :
    Takes (block nestingLimit)
      (⟨.mark .braceOpen, opening⟩ :: (pieces.flatMap Piece.tokens ++ [⟨.mark .braceClose, closing⟩])) later
      (pieces.flatMap Piece.faults) (·.body = pieces.flatMap Piece.statements) := by
  rw [block_nestingLimit]
  apply Takes.expect
  intro opening
  refine (body_takes pieces [] rfl).bind_rest fun body same => ?_
  apply Takes.expect
  intro closing
  exact .pure same

end Parser

end RouteDepot.RouteClass
