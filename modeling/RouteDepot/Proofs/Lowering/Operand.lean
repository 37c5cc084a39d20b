import RouteDepot.Proofs.Lowering.Clean
import RouteDepot.Proofs.Results
import RouteDepot.RouteClass.Evaluation
import RouteDepot.RouteClass.Lowering.Operand

/-! # What operands come to

An operand evaluates to values of its own type alone. Appending operands joins the texts of their values and keeps
the first fault, whatever constants are merged on the way. The operands of expressions are made of constants, of
those of local variables, of placeholders in methods, and of what is appended to what.
-/

namespace RouteDepot.RouteClass

namespace Operand

variable {reach : Reach}

/-! ### Types and texts -/

/-- A value has the type of the operand that it is the value of. -/
theorem type_of_eval {operand : Operand} {value : Value} (evaluated : operand.eval reach = .ok value) :
    value.type = operand.type := by
  cases operand with
  | const constant =>
    rw [eval] at evaluated
    obtain rfl := Except.ok.inj evaluated
    rfl
  | placeholders text =>
    rw [eval] at evaluated
    obtain ⟨_, _, evaluated⟩ := Except.bind_eq_ok_iff.mp evaluated
    obtain ⟨_, _, evaluated⟩ := Except.bind_eq_ok_iff.mp evaluated
    obtain rfl := Except.ok.inj evaluated
    rfl
  | concat parts =>
    rw [eval] at evaluated
    obtain ⟨_, _, evaluated⟩ := Except.bind_eq_ok_iff.mp evaluated
    obtain rfl := Except.ok.inj evaluated
    rfl

/-- An operand that is not a constant is a text. -/
theorem type_eq_str {operand : Operand} (notConst : ∀ value, operand ≠ const value) : operand.type = .str := by
  cases operand with
  | const value => exact (notConst value rfl).elim
  | placeholders _ | concat _ => rfl

/-- The texts of the values of operands, one after another. -/
def evalJoined (reach : Reach) (parts : List Operand) : Except ConfigureError String :=
  String.join <$> evalTexts reach parts

@[simp] theorem evalJoined_nil : evalJoined reach [] = .ok "" := by
  simp [evalJoined, evalTexts]

@[simp] theorem evalJoined_cons (part : Operand) (later : List Operand) :
    evalJoined reach (part :: later) =
      part.evalText reach >>= fun text => (text ++ ·) <$> evalJoined reach later := by
  simp only [evalJoined, evalTexts, evalText]
  cases part.eval reach with
  | error fault => rfl
  | ok value => cases evalTexts reach later <;> simp

theorem evalJoined_append (first second : List Operand) :
    evalJoined reach (first ++ second) =
      evalJoined reach first >>= fun text => (text ++ ·) <$> evalJoined reach second := by
  induction first with
  | nil => cases joined : evalJoined reach second <;> simp [joined]
  | cons part later ih =>
    simp only [List.cons_append, evalJoined_cons, ih]
    cases part.evalText reach with
    | error fault => rfl
    | ok text =>
      cases evalJoined reach later with
      | error fault => rfl
      | ok texts => cases evalJoined reach second <;> simp [String.append_assoc]

theorem eval_concat (parts : List Operand) : (concat parts).eval reach = .str <$> evalJoined reach parts := by
  simp only [eval, evalJoined]
  cases evalTexts reach parts <;> rfl

@[simp] theorem evalText_const (value : Value) : (const value).evalText reach = .ok value.display := by
  simp [evalText, eval]

/-- Merging neighbouring constants changes neither the joined texts nor the first fault. -/
theorem evalJoined_mergeConstants (parts : List Operand) :
    evalJoined reach (mergeConstants parts) = evalJoined reach parts := by
  fun_induction mergeConstants parts with
  | case1 a b later ih =>
    rw [ih]
    simp only [evalJoined_cons, evalText_const, Except.bind_ok, Value.display]
    cases evalJoined reach later <;> simp [String.append_assoc]
  | case2 part later _ ih => rw [evalJoined_cons, evalJoined_cons, ih]
  | case3 => rfl

theorem evalJoined_parts (operand : Operand) : evalJoined reach operand.parts = operand.evalText reach := by
  cases operand with
  | concat inner =>
    simp only [parts, evalText, eval_concat]
    cases evalJoined reach inner <;> rfl
  | const value => simp [parts]
  | placeholders text =>
    simp only [parts, evalJoined_cons, evalJoined_nil, Except.map_ok, String.append_empty]
    cases (placeholders text).evalText reach <;> rfl

/-- An operand of type text has no values but texts. -/
theorem eval_eq_str {operand : Operand} (text : operand.type = .str) :
    operand.eval reach = .str <$> operand.evalText reach := by
  simp only [evalText]
  cases evaluated : operand.eval reach with
  | error fault => rfl
  | ok value =>
    have typed := (type_of_eval evaluated).trans text
    cases value with
    | str value => rfl
    | int _ | bool _ | null => cases typed

/-- The value of an appended operand: the texts of both, or the fault of the first that has none. -/
theorem eval_append (left right : Operand) :
    (left.append right).eval reach =
      left.evalText reach >>= fun text => (fun more => .str (text ++ more)) <$> right.evalText reach := by
  -- Both the parts of the two sides and their merged parts join to one text, however few parts are left.
  have joined : evalJoined reach (mergeConstants (left.parts ++ right.parts)) =
      left.evalText reach >>= fun text => (text ++ ·) <$> right.evalText reach := by
    rw [evalJoined_mergeConstants, evalJoined_append, evalJoined_parts, evalJoined_parts]
  have value : (left.append right).eval reach =
      .str <$> evalJoined reach (mergeConstants (left.parts ++ right.parts)) := by
    unfold append
    split
    · rename_i none; simp [none, eval]
    · rename_i constant one; simp [one, eval]
    · rename_i part notConstant one
      rw [one, eval_eq_str (type_eq_str notConstant), evalJoined_cons, evalJoined_nil]
      cases part.evalText reach <;> simp
    · exact eval_concat _
  rw [value, joined]
  cases left.evalText reach with
  | error fault => rfl
  | ok text => cases right.evalText reach <;> rfl

/-! ### Sums and arguments -/

theorem plus_eq_done {span : Span} {left right sum : Operand} (added : left.plus span right = .done sum) :
    (∃ a b, left = .const (.int a) ∧ right = .const (.int b) ∧ sum = .const (.int (a + b))) ∨
      (left.type = .str ∨ right.type = .str) ∧ sum = left.append right := by
  unfold plus at added
  split at added
  · rename_i a b
    exact .inl ⟨a, b, rfl, rfl, (Lowered.done_inj.mp added).symm⟩
  · split at added
    · rename_i text
      exact .inr ⟨text, (Lowered.done_inj.mp added).symm⟩
    · exact absurd added Lowered.fail_ne_done

theorem checkArgument_eq_done_iff {method : String} {accepted : List ValueType} {span : Span}
    {operand result : Operand} :
    operand.checkArgument method accepted span = .done result ↔
      operand = result ∧ result.type ≠ .null ∧ result.type ∈ accepted := by
  unfold checkArgument
  split
  · simp only [Lowered.fail_ne_done, false_iff]
    rintro ⟨rfl, notNull, _⟩
    contradiction
  · split
    · simp only [Lowered.done_inj]
      constructor
      · rintro rfl
        exact ⟨rfl, ‹_›, ‹_›⟩
      · exact And.left
    · simp only [Lowered.fail_ne_done, false_iff]
      rintro ⟨rfl, _, member⟩
      contradiction

theorem decided_plus {span : Span} {left right : Operand} : (left.plus span right).Decided := by
  unfold plus
  split
  · exact Lowered.decided_done _
  · split
    · exact Lowered.decided_done _
    · exact Lowered.decided_fail

theorem decided_checkArgument {method : String} {accepted : List ValueType} {span : Span} {operand : Operand} :
    (operand.checkArgument method accepted span).Decided := by
  unfold checkArgument
  split
  · exact Lowered.decided_fail
  · split
    · exact Lowered.decided_done _
    · exact Lowered.decided_fail

end Operand

/-! ### Expressions -/

namespace Scope

variable {scope : Scope}

theorem field_eq_done_iff {name : Ident} {operand : Operand} :
    scope.field name = .done operand ↔
      ∃ value, scope.fields.lookup name.name = some value ∧ .const value = operand := by
  unfold field
  cases scope.fields.lookup name.name <;> simp

theorem resolve_eq_done_iff {name : Ident} {operand : Operand} :
    scope.resolve name = .done operand ↔
      scope.locals.lookup name.name = some (some operand) ∨
        scope.locals.lookup name.name = none ∧ scope.field name = .done operand := by
  unfold resolve
  rcases scope.locals.lookup name.name with _ | _ | found <;> simp

theorem decided_field (name : Ident) : (scope.field name).Decided := by
  unfold field
  split
  · exact Lowered.decided_done _
  · exact Lowered.decided_fail

theorem decided_resolve (name : Ident) : (scope.resolve name).Decided := by
  unfold resolve
  split
  · exact Lowered.decided_done _
  · exact Lowered.decided_fail
  · exact decided_field name

end Scope

namespace Expression

/-- An expression has an operand or a fault, and not both. -/
theorem decided_operand (scope : Scope) (e : Expression) : (e.operand scope).Decided := by
  fun_induction operand scope e with
  | case1 | case5 => exact Lowered.decided_done _
  | case2 name => exact Scope.decided_resolve name
  | case4 _ member => exact Scope.decided_field member
  | case3 | case6 | case7 | case8 | case9 | case11 | case12 | case13 | case14 => exact Lowered.decided_fail
  | case10 _ _ _ _ _ arg ih =>
    exact ih.bind fun text => Operand.decided_checkArgument.bind fun _ => Lowered.decided_done _
  | case15 left right ihl ihr => exact (ihl.both ihr).bind fun _ => Operand.decided_plus

theorem explained_operand (scope : Scope) (e : Expression) : (e.operand scope).Explained :=
  (e.decided_operand scope).explained

/-- A property of operands holds for all expressions in a scope when it holds for constants and for the local
variables, and is kept by placeholders, which stand in methods alone, and by appending. -/
theorem operand_closed {scope : Scope} {P : Operand → Prop} (const : ∀ value, P (.const value))
    (placeholders : scope.place = .method → ∀ text, P text → P (.placeholders text))
    (append : ∀ left right, P left → P right → P (left.append right))
    (locals : ∀ name operand, scope.locals.lookup name = some (some operand) → P operand)
    {e : Expression} {operand : Operand} (lowered : e.operand scope = .done operand) : P operand := by
  have field {name : Ident} {operand : Operand} (found : scope.field name = .done operand) : P operand := by
    obtain ⟨value, _, rfl⟩ := Scope.field_eq_done_iff.mp found
    exact const value
  fun_induction Expression.operand scope e generalizing operand with
  | case1 | case5 =>
    obtain rfl := Lowered.done_inj.mp lowered
    exact const _
  | case2 name =>
    obtain found | ⟨_, found⟩ := Scope.resolve_eq_done_iff.mp lowered
    · exact locals _ _ found
    · exact field found
  | case4 => exact field lowered
  | case3 | case6 | case7 | case8 | case9 | case11 | case12 | case13 | case14 =>
    exact absurd lowered Lowered.fail_ne_done
  | case10 _ _ _ _ inMethod arg ih =>
    simp only [Lowered.bind_eq_done_iff, Operand.checkArgument_eq_done_iff, Lowered.pure_eq_done,
      Lowered.done_inj] at lowered
    obtain ⟨text, inner, _, ⟨rfl, _⟩, rfl⟩ := lowered
    exact placeholders (not_ne_iff.mp inMethod) _ (ih inner)
  | case15 left right ihl ihr =>
    simp only [Lowered.bind_eq_done_iff, Lowered.both_eq_done_iff] at lowered
    obtain ⟨⟨l, r⟩, ⟨first, second⟩, added⟩ := lowered
    obtain ⟨a, b, _, _, rfl⟩ | ⟨_, rfl⟩ := Operand.plus_eq_done added
    · exact const _
    · exact append _ _ (ihl first) (ihr second)

end Expression

end RouteDepot.RouteClass
