import RouteDepot.Proofs.Spelling.Accounts
import RouteDepot.RouteClass.Parsing.Declaration

/-! # Levels on a counter

The parser of an expression or block takes the number of levels that may still be opened as its argument. Here the same
parsers keep a counter of the levels that are open, next to the cursor: it goes up where a level is opened, and down
where it is left, by a value or by a fault. The counter is always back where it was, and both do the same.
-/

namespace RouteDepot.RouteClass

/-- A step of a parse that also keeps a counter of the levels that are open. -/
abbrev Leveled (α : Type) := ExceptT (Finding SyntaxFault) (StateM (Cursor × Nat)) α

namespace Leveled

variable {α β : Type}

/-! ### Steps and loops -/

/-- A step that opens no level. -/
def flat (p : Parser α) : Leveled α := ExceptT.mk fun (c, count) =>
  let (r, after) := p.run.run c
  (r, after, count)

/-- Opens a level, if there are any left. -/
def enter (what : String) : Leveled Unit := do
  let (_, count) ← get
  if count ≥ Parser.nestingLimit then flat (Parser.fail (.nestedTooDeeply what))
  else modify fun (c, count) => (c, count + 1)

/-- Leaves a level. -/
def leave : Leveled Unit := modify fun (c, count) => (c, count - 1)

/-- A level is left in both cases, with a value and with a fault. -/
def level (what : String) (p : Leveled α) : Leveled α := do
  enter what
  let a ← tryCatch p fun fault => do
    leave
    throw fault
  leave
  return a

/-- Repeats a step as long as it yields a value and shortens the tokens ahead. -/
def iterateFrom (step : α → Leveled (Option α)) (value : α) (c : Cursor) (count : Nat) :
    Except (Finding SyntaxFault) α × Cursor × Nat :=
  match (step value).run.run (c, count) with
  | (.error fault, after) => (.error fault, after)
  | (.ok none, after) => (.ok value, after)
  | (.ok (some more), after) =>
    if after.1.ahead.length < c.ahead.length then iterateFrom step more after.1 after.2 else (.ok more, after)
termination_by c.ahead.length

def iterate (step : α → Leveled (Option α)) (value : α) : Leveled α :=
  ExceptT.mk fun (c, count) => iterateFrom step value c count

def commaSeparated (item : Leveled α) : Leveled (List α) := do
  let first ← item
  iterate (fun done => do
    if ← flat (Parser.accept (.mark .comma)) then return some (done ++ [← item]) else return none) [first]

def recover (step : Leveled α) (moveOn : Cursor → Cursor) : Leveled (Option α) :=
  tryCatch (do return some (← step)) fun fault => do
    modify fun (c, count) => ({ c with faults := c.faults ++ [fault] }, count)
    modify fun (c, count) => (moveOn c, count)
    return none

/-! ### Expressions -/

def arguments (nested : Leveled Expression) : Leveled (List Expression) := do
  let _ ← flat (Parser.expect (.mark .parenOpen) "'('")
  let args ← if ← flat (Parser.sees (.mark .parenClose)) then pure [] else commaSeparated nested
  let _ ← flat (Parser.expect (.mark .parenClose) "')'")
  return args

def primary (nested : Leveled Expression) : Leveled Expression := do
  let here := (← get).1.here
  match (← get).1.next? with
  | some (.ident _) =>
    let name ← flat Parser.ident
    if ← flat (Parser.sees (.mark .parenOpen)) then
      let args ← arguments nested
      return .call name args ⟨name.span.start, (← get).1.last.stop⟩
    else return .name name
  | some (.keyword .thisKw) =>
    flat Parser.skip
    return .this here
  | some (.keyword .newKw) =>
    flat Parser.skip
    let type ← flat Parser.dottedName
    let args ← arguments nested
    return .new type args ⟨here.start, (← get).1.last.stop⟩
  | some (.mark .parenOpen) =>
    flat Parser.skip
    let inner ← nested
    let _ ← flat (Parser.expect (.mark .parenClose) "')'")
    return inner
  | some kind =>
    match Parser.literal? kind with
    | some value =>
      flat Parser.skip
      return .literal value here
    | none => flat (Parser.failExpected "expression")
  | none => flat (Parser.failExpected "expression")

def chainLink (nested : Leveled Expression) (target : Expression) : Leveled (Option Expression) := do
  if ← flat (Parser.accept (.mark .dot)) then
    flat Parser.link
    let name ← flat Parser.ident
    if ← flat (Parser.sees (.mark .parenOpen)) then
      let args ← arguments nested
      return some (.callOn target name args ⟨target.start, (← get).1.last.stop⟩)
    else return some (.field target name)
  else return none

def chain (nested : Leveled Expression) : Leveled Expression := do
  iterate (chainLink nested) (← primary nested)

def sumTerm (nested : Leveled Expression) (left : Expression) : Leveled (Option Expression) := do
  if ← flat (Parser.accept (.mark .plus)) then
    flat Parser.link
    return some (.concat left (← chain nested))
  else return none

def sum (nested : Leveled Expression) : Leveled Expression := do
  iterate (sumTerm nested) (← chain nested)

/-- An expression opens a level. There is a bound on the recursion apart from the counter; `beyond` stands for whatever
a parser would do that gets there. -/
def expression (beyond : Leveled Expression) : Nat → Leveled Expression
  | 0 => beyond
  | bound + 1 => level "expression" (sum (expression beyond bound))

/-! ### Statements -/

def initialValue (nested : Leveled Expression) : Leveled (Option Expression) := do
  if ← flat (Parser.accept (.mark .equal)) then return some (← nested) else return none

def localDeclaration (nested : Leveled Expression) : Leveled Statement := do
  let _ ← flat (Parser.accept (.keyword .finalKw))
  let type ← flat Parser.typeName
  let name ← flat Parser.ident
  let value ← initialValue nested
  let _ ← flat (Parser.expect (.mark .semicolon) "';'")
  return .declare type name value

def statement (nested : Leveled Expression) (nestedBlock : Leveled Block) : Leveled Statement := do
  flat Parser.resetLinks
  match (← get).1.next? with
  | some (.mark .semicolon) =>
    flat Parser.skip
    return .empty
  | some (.mark .braceOpen) =>
    let inner ← nestedBlock
    return .block inner.body inner.span
  | some (.keyword .returnKw) =>
    let span := (← get).1.here
    flat Parser.skip
    if ← flat (Parser.accept (.mark .semicolon)) then return .return span else flat (Parser.fail .returnValue)
  | some (.keyword .throwKw) =>
    let start := (← get).1.here.start
    flat Parser.skip
    let value ← nested
    let semicolon ← flat (Parser.expect (.mark .semicolon) "';'")
    return .throw value ⟨start, semicolon.stop⟩
  | _ =>
    if Parser.startsDeclaration (← get).1.ahead then localDeclaration nested
    else
      let value ← nested
      let _ ← flat (Parser.expect (.mark .semicolon) "';'")
      return .expression value

def bodyStatement (nested : Leveled Expression) (nestedBlock : Leveled Block) (done : List Statement) :
    Leveled (Option (List Statement)) := do
  if ← flat Parser.bodyEnds then return none
  return some (done ++ (← recover (statement nested nestedBlock) Cursor.afterMember).toList)

def braced (nested : Leveled Expression) (nestedBlock : Leveled Block) : Leveled Block := do
  let opening ← flat (Parser.expect (.mark .braceOpen) "'\x7b'")
  let body ← iterate (bodyStatement nested nestedBlock) []
  let closing ← flat (Parser.expect (.mark .braceClose) "'\x7d'")
  return ⟨body, ⟨opening.start, closing.stop⟩⟩

/-- A block opens a level, and so do the expressions in it. -/
def block (beyond : Leveled Expression) (beyond' : Leveled Block) : Nat → Leveled Block
  | 0 => beyond'
  | bound + 1 => level "block" (braced (expression beyond bound) (block beyond beyond' bound))

/-! ### Doing the same -/

/-- With a given count of open levels, a leveled step does what a plain one does, and the count is left as it was. -/
def DoesSame (count : Nat) (p : Leveled α) (q : Parser α) : Prop :=
  ∀ c, p.run.run (c, count) = ((q.run.run c).1, (q.run.run c).2, count)

namespace DoesSame

variable {count : Nat} {p : Leveled α} {q : Parser α}

theorem pure {a : α} : DoesSame count (pure a) (pure a) := fun _ => rfl

theorem flat : DoesSame count (flat q) q := fun _ => rfl

theorem bind {first : Leveled β} {first' : Parser β} {next : β → Leveled α} {next' : β → Parser α}
    (same : DoesSame count first first') (later : ∀ b, DoesSame count (next b) (next' b)) :
    DoesSame count (first >>= next) (first' >>= next') := by
  intro c
  rw [ExceptT.run_bind_state, ExceptT.run_bind_state, same c]
  rcases first'.run.run c with ⟨_ | b, middle⟩
  · rfl
  · exact later b middle

theorem get {next : Cursor × Nat → Leveled α} {next' : Cursor → Parser α}
    (later : ∀ c, DoesSame count (next (c, count)) (next' c)) :
    DoesSame count (MonadState.get >>= next) (MonadState.get >>= next') := by
  intro c
  rw [ExceptT.run_bind_state, ExceptT.run_bind_state]
  exact later c c

theorem iterate {step : α → Leveled (Option α)} {step' : α → Parser (Option α)}
    (same : ∀ value, DoesSame count (step value) (step' value)) (value : α) :
    DoesSame count (iterate step value) (Parser.iterate step' value) := by
  intro c
  change iterateFrom step value c count =
    ((Parser.iterateFrom step' value c).1, (Parser.iterateFrom step' value c).2, count)
  fun_induction Parser.iterateFrom step' value c with
  | case1 value c _ _ stepped | case2 value c _ stepped => rw [iterateFrom, same value c, stepped]
  | case3 value c _ _ stepped shorter ih =>
    rw [iterateFrom, same value c, stepped]
    simp only [shorter, ↓reduceIte]
    exact ih
  | case4 value c _ _ stepped longer =>
    rw [iterateFrom, same value c, stepped]
    simp only [longer, ↓reduceIte]

theorem run_tryCatch (p : Leveled α) (handle : Finding SyntaxFault → Leveled α) (s : Cursor × Nat) :
    (tryCatch p handle).run.run s =
      match p.run.run s with
      | (.ok a, after) => (.ok a, after)
      | (.error fault, after) => (handle fault).run.run after := by
  simp only [tryCatch, tryCatchThe, MonadExceptOf.tryCatch, ExceptT.tryCatch, Bind.bind, ExceptT.mk, ExceptT.run,
    StateT.bind, StateT.run]
  rcases p s with ⟨_ | _, _⟩ <;> rfl

theorem recover {moveOn : Cursor → Cursor} (same : DoesSame count p q) :
    DoesSame count (recover p moveOn) (Parser.recover q moveOn) := by
  intro c
  rw [Leveled.recover, run_tryCatch, ExceptT.run_bind_state, same c]
  rcases ran : q.run.run c with ⟨fault | a, after⟩
  · rw [Parser.recover_run_error ran]
    rfl
  · rw [Parser.recover_run ran]
    rfl

theorem level_full (what : String) (full : Parser.nestingLimit ≤ count) :
    DoesSame count (level what p) (Parser.fail (.nestedTooDeeply what)) := by
  intro c
  have refused : (enter what).run.run (c, count) =
      (.error ⟨c.here, .nestedTooDeeply what⟩, c, count) := by
    change (if count ≥ Parser.nestingLimit then _ else _ : Leveled Unit).run.run _ = _
    rw [if_pos full]
    rfl
  rw [Leveled.level, ExceptT.run_bind_state, refused]
  rfl

/-- A level is left as it was opened. -/
theorem level (what : String) (free : count < Parser.nestingLimit) (same : DoesSame (count + 1) p q) :
    DoesSame count (level what p) q := by
  intro c
  have entered : (enter what).run.run (c, count) = (.ok (), c, count + 1) := by
    change (if count ≥ Parser.nestingLimit then _ else _ : Leveled Unit).run.run _ = _
    rw [if_neg (Nat.not_le.mpr free)]
    rfl
  rw [Leveled.level, ExceptT.run_bind_state, entered]
  simp only [ExceptT.run_bind_state (tryCatch _ _), run_tryCatch, same c]
  rcases q.run.run c with ⟨fault | a, after⟩
  · rfl
  · rfl

end DoesSame

theorem commaSeparated_same {count : Nat} {item : Leveled α} {item' : Parser α} (same : DoesSame count item item') :
    DoesSame count (commaSeparated item) (Parser.commaSeparated item') := by
  refine .bind same fun first => .iterate (fun done => .bind .flat fun more => ?_) [first]
  cases more with
  | true => exact .bind same fun _ => .pure
  | false => exact .pure

section Nested

variable {count : Nat} {nested : Leveled Expression} {plain : Parser Expression} (same : DoesSame count nested plain)

include same

theorem arguments_same : DoesSame count (arguments nested) (Parser.arguments plain) := by
  refine .bind .flat fun opening => .bind .flat fun closes => ?_
  cases closes with
  | true => exact .bind .pure fun args => .bind .flat fun _ => .pure
  | false => exact .bind (commaSeparated_same same) fun args => .bind .flat fun _ => .pure

theorem primary_same : DoesSame count (primary nested) (Parser.primary plain) := by
  refine .get fun c => .get fun c' => ?_
  dsimp only
  rcases c'.next? with _ | kind
  · exact .flat
  cases kind with
  | ident =>
    refine .bind .flat fun name => .bind .flat fun calls => ?_
    cases calls with
    | true => exact .bind (arguments_same same) fun _ => .get fun _ => .pure
    | false => exact .pure
  | str | char | int => exact .bind .flat fun _ => .pure
  | keyword word =>
    cases word with
    | thisKw | trueKw | falseKw | nullKw => exact .bind .flat fun _ => .pure
    | newKw => exact .bind .flat fun _ => .bind .flat fun _ => .bind (arguments_same same) fun _ => .get fun _ => .pure
    | _ => exact .flat
  | mark sign =>
    cases sign with
    | parenOpen => exact .bind .flat fun _ => .bind same fun _ => .bind .flat fun _ => .pure
    | _ => exact .flat

theorem chain_same : DoesSame count (chain nested) (Parser.chain plain) := by
  refine .bind (primary_same same) fun first => .iterate (fun target => .bind .flat fun more => ?_) first
  cases more with
  | true =>
    refine .bind .flat fun _ => .bind .flat fun name => .bind .flat fun calls => ?_
    cases calls with
    | true => exact .bind (arguments_same same) fun _ => .get fun _ => .pure
    | false => exact .pure
  | false => exact .pure

theorem sum_same : DoesSame count (sum nested) (Parser.sum plain) := by
  refine .bind (chain_same same) fun first => .iterate (fun left => .bind .flat fun more => ?_) first
  cases more with
  | true => exact .bind .flat fun _ => .bind (chain_same same) fun _ => .pure
  | false => exact .pure

theorem initialValue_same : DoesSame count (initialValue nested) (Parser.initialValue plain) := by
  refine .bind .flat fun more => ?_
  cases more with
  | true => exact .bind same fun _ => .pure
  | false => exact .pure

theorem localDeclaration_same : DoesSame count (localDeclaration nested) (Parser.localDeclaration plain) :=
  .bind .flat fun _ => .bind .flat fun _ => .bind .flat fun _ => .bind (initialValue_same same) fun _ =>
    .bind .flat fun _ => .pure

variable {nestedBlock : Leveled Block} {plainBlock : Parser Block} (sameBlock : DoesSame count nestedBlock plainBlock)

include sameBlock

theorem statement_same : DoesSame count (statement nested nestedBlock) (Parser.statement plain plainBlock) := by
  have other : DoesSame count
      (do
        if Parser.startsDeclaration (← get).1.ahead then localDeclaration nested
        else
          let value ← nested
          let _ ← flat (Parser.expect (.mark .semicolon) "';'")
          return .expression value)
      (do
        if Parser.startsDeclaration (← get).ahead then Parser.localDeclaration plain
        else
          let value ← plain
          let _ ← Parser.expect (.mark .semicolon) "';'"
          return .expression value) := by
    refine .get fun c => ?_
    dsimp only
    cases Parser.startsDeclaration c.ahead with
    | true => exact localDeclaration_same same
    | false => exact .bind same fun _ => .bind .flat fun _ => .pure
  refine .bind .flat fun _ => .get fun c => ?_
  dsimp only
  rcases c.next? with _ | kind
  · exact other
  cases kind with
  | keyword word =>
    cases word with
    | returnKw =>
      refine .get fun c => .bind .flat fun _ => .bind .flat fun ends => ?_
      cases ends with
      | true => exact .pure
      | false => exact .flat (q := Parser.fail .returnValue)
    | throwKw => exact .get fun c => .bind .flat fun _ => .bind same fun _ => .bind .flat fun _ => .pure
    | _ => exact other
  | mark sign =>
    cases sign with
    | semicolon => exact .bind .flat fun _ => .pure
    | braceOpen => exact .bind sameBlock fun _ => .pure
    | _ => exact other
  | _ => exact other

theorem braced_same : DoesSame count (braced nested nestedBlock) (Parser.braced plain plainBlock) := by
  refine .bind .flat fun opening => .bind (.iterate (fun done => .bind .flat fun ends => ?_) []) fun body =>
    .bind .flat fun _ => .pure
  cases ends with
  | true => exact .pure
  | false => exact .bind (.recover (statement_same same sameBlock)) fun _ => .pure

end Nested

/-- With a number of levels open, an expression may open those that are left. -/
theorem expression_same (beyond : Leveled Expression) {count bound : Nat} (within : count ≤ Parser.nestingLimit)
    (enough : Parser.nestingLimit < count + bound) :
    DoesSame count (expression beyond bound) (Parser.expression (Parser.nestingLimit - count)) := by
  induction bound generalizing count with
  | zero => omega
  | succ bound ih =>
    obtain rfl | free := Nat.eq_or_lt_of_le within
    · rw [Nat.sub_self]
      exact .level_full "expression" (Nat.le_refl _)
    · have left : Parser.nestingLimit - count = Parser.nestingLimit - (count + 1) + 1 := by omega
      rw [left]
      exact .level "expression" free (sum_same (ih free (by omega)))

theorem block_same (beyond : Leveled Expression) (beyond' : Leveled Block) {count bound : Nat}
    (within : count ≤ Parser.nestingLimit) (enough : Parser.nestingLimit < count + bound) :
    DoesSame count (block beyond beyond' bound) (Parser.block (Parser.nestingLimit - count)) := by
  induction bound generalizing count with
  | zero => omega
  | succ bound ih =>
    obtain rfl | free := Nat.eq_or_lt_of_le within
    · rw [Nat.sub_self]
      exact .level_full "block" (Nat.le_refl _)
    · have left : Parser.nestingLimit - count = Parser.nestingLimit - (count + 1) + 1 := by omega
      rw [left]
      exact .level "block" free (braced_same (expression_same beyond free (by omega)) (ih free (by omega)))

end Leveled

end RouteDepot.RouteClass
