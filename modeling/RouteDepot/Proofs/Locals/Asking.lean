import RouteDepot.Proofs.Direct.Statement

/-! # Texts that are asked for

An expression asks for texts to be resolved: those in its own calls, and those that the initialisers of the local
variables ask for which it uses. It has a value only when all of these texts resolve, and when the evaluation of a
placeholder makes it fail, it has asked for a text that does not resolve.
-/

namespace RouteDepot.RouteClass.Direct

open Operand (resolveText)

namespace Environment

variable {env : Environment} {locals earlier : Locals} {text : String}

/-- Among local variables, an expression or an argument asks for a text to be resolved. A local variable asks for what
its initialiser asks for, among the variables declared before it. -/
inductive Asks (env : Environment) : Locals → Expression → String → Prop
  | here {locals : Locals} {target arg : Expression} {callee : Ident} {span : Span} {text : String} :
      callee.name = "resolvePropertyPlaceholders" → target.isGetContext → env.eval locals arg = .ok (.str text) →
      Asks env locals (.callOn target callee [arg] span) text
  | inside {locals : Locals} {target arg : Expression} {callee : Ident} {span : Span} {text : String} :
      Asks env locals arg text → Asks env locals (.callOn target callee [arg] span) text
  | clause {locals : Locals} {arg : Expression} {callee : Ident} {span : Span} {text : String} :
      Asks env locals arg text → Asks env locals (.call callee [arg] span) text
  | left {locals : Locals} {first second : Expression} {text : String} :
      Asks env locals first text → Asks env locals (.concat first second) text
  | right {locals : Locals} {first second : Expression} {text : String} :
      Asks env locals second text → Asks env locals (.concat first second) text
  | initialiser {earlier : Locals} {ident : Ident} {value : Expression} {text : String} :
      Asks env earlier value text → Asks env ((ident.name, some value) :: earlier) (.name ident) text
  | before {earlier : Locals} {ident : Ident} {name : String} {value : Option Expression} {text : String} :
      ident.name ≠ name → Asks env earlier (.name ident) text →
      Asks env ((name, value) :: earlier) (.name ident) text

/-! ### Evaluation -/

theorem eval_concat (left right : Expression) :
    env.eval locals (.concat left right) = (do plus (← env.eval locals left) (← env.eval locals right)) := rfl

theorem eval_callOn (target arg : Expression) (callee : Ident) (span : Span) :
    env.eval locals (.callOn target callee [arg] span) =
      if callee.name = "resolvePropertyPlaceholders" ∧ target.isGetContext then do
        match ← env.eval locals arg with
        | .str text => .str <$> (resolveText env.reach text).mapError .failed
        | _ => .error .meaningless
      else .error .meaningless := rfl

theorem eval_name_cons (ident : Ident) (name : String) (value : Option Expression) :
    env.eval ((name, value) :: earlier) (.name ident) =
      if ident.name = name then value.elim (.error .meaningless) (env.eval earlier)
      else env.eval earlier (.name ident) := by
  simp only [eval, evalIn, localValue?_cons]
  split <;> rfl

/-- The texts that an expression with a value asks for resolve. -/
theorem Asks.resolves {e : Expression} (asks : env.Asks locals e text) {value : Value}
    (evaluated : env.eval locals e = .ok value) : ∃ resolved, resolveText env.reach text = .ok resolved := by
  induction asks generalizing value with
  | @here locals target arg callee span text named isContext asked =>
    rw [eval_callOn, if_pos ⟨named, isContext⟩, asked] at evaluated
    cases resolved : resolveText env.reach text with
    | ok whole => exact ⟨whole, rfl⟩
    | error fault => simp [resolved, Except.mapError] at evaluated
  | inside _ ih =>
    rw [eval_callOn] at evaluated
    split at evaluated
    · obtain ⟨_, inner, _⟩ := Except.bind_eq_ok_iff.mp evaluated
      exact ih inner
    · cases evaluated
  | clause => simp [eval, evalIn] at evaluated
  | left _ ih =>
    rw [eval_concat] at evaluated
    obtain ⟨_, inner, _⟩ := Except.bind_eq_ok_iff.mp evaluated
    exact ih inner
  | right _ ih =>
    rw [eval_concat] at evaluated
    obtain ⟨_, _, rest⟩ := Except.bind_eq_ok_iff.mp evaluated
    obtain ⟨_, inner, _⟩ := Except.bind_eq_ok_iff.mp rest
    exact ih inner
  | initialiser _ ih =>
    rw [eval_name_cons, if_pos rfl] at evaluated
    exact ih evaluated
  | before differs _ ih =>
    rw [eval_name_cons, if_neg differs] at evaluated
    exact ih evaluated

/-! ### Failing by asking -/

/-- An expression asks for a text whose placeholders do not resolve, and the fault is that of the text. -/
def FailsByAsking (env : Environment) (locals : Locals) (e : Expression) (error : ConfigureError) : Prop :=
  ∃ text, env.Asks locals e text ∧ resolveText env.reach text = .error error

theorem FailsByAsking.mono {e whole : Expression} {error : ConfigureError}
    (fails : env.FailsByAsking earlier e error)
    (within : ∀ text, env.Asks earlier e text → env.Asks locals whole text) : env.FailsByAsking locals whole error := by
  obtain ⟨text, asks, failed⟩ := fails
  exact ⟨text, within text asks, failed⟩

theorem plus_ne_failed {a b : Value} {error : ConfigureError} : plus a b ≠ .error (.failed error) := by
  cases a <;> cases b <;> simp [plus]

theorem field_ne_failed {name : String} {error : ConfigureError} : env.field name ≠ .error (.failed error) := by
  unfold field
  split <;> simp

/-- An expression that fails does so by asking, when this holds for the names in it. -/
theorem failsByAsking_of_names {error : ConfigureError}
    (names : ∀ ident : Ident, env.eval locals (.name ident) = .error (.failed error) →
      env.FailsByAsking locals (.name ident) error) {e : Expression}
    (failed : env.eval locals e = .error (.failed error)) : env.FailsByAsking locals e error := by
  unfold eval at names failed
  fun_induction evalIn env (env.localValue? locals) e with
  | case1 | case4 | case5 | case7 | case9 => cases failed
  | case2 ident =>
    refine names ident ?_
    rwa [evalIn]
  | case3 _ member => exact absurd failed field_ne_failed
  | case6 target callee arg span asked ih =>
    obtain inner | ⟨value, evaluated, failed⟩ := Except.bind_eq_error_iff.mp failed
    · exact (ih inner).mono fun _ => .inside
    · cases value with
      | str text =>
        refine ⟨text, .here asked.1 asked.2 evaluated, ?_⟩
        cases resolved : resolveText env.reach text with
        | ok whole => simp [resolved] at failed
        | error fault => simpa [resolved, Except.mapError] using failed
      | int _ | bool _ | null => cases failed
  | case8 left right ihl ihr =>
    obtain first | ⟨_, _, failed⟩ := Except.bind_eq_error_iff.mp failed
    · exact (ihl first).mono fun _ => .left
    · obtain second | ⟨_, _, failed⟩ := Except.bind_eq_error_iff.mp failed
      · exact (ihr second).mono fun _ => .right
      · exact absurd failed plus_ne_failed

/-- An expression that fails by a placeholder has asked for the text, itself or through its local variables. -/
theorem failsByAsking_of_eval {e : Expression} {error : ConfigureError}
    (failed : env.eval locals e = .error (.failed error)) : env.FailsByAsking locals e error := by
  -- A name fails as the initialiser of its variable does, among fewer local variables.
  induction locals generalizing e with
  | nil =>
    refine failsByAsking_of_names (fun ident named => ?_) failed
    rw [eval, evalIn, localValue?, Option.getD_none] at named
    exact absurd named field_ne_failed
  | cons entry earlier ih =>
    obtain ⟨name, value⟩ := entry
    refine failsByAsking_of_names (fun ident named => ?_) failed
    rw [eval_name_cons] at named
    split at named
    · rename_i same
      subst same
      cases value with
      | none => cases named
      | some value => exact (ih named).mono fun _ => .initialiser
    · rename_i differs
      exact (ih named).mono fun _ => .before differs

/-! ### Arguments -/

/-- The texts that an argument asks for resolve when it can be given. -/
theorem Asks.resolves_of_argument {arg : Expression} (asks : env.Asks locals arg text) {given : Argument}
    (evaluated : env.argument locals arg = .ok given) : ∃ resolved, resolveText env.reach text = .ok resolved := by
  unfold argument at evaluated
  split at evaluated
  · split at evaluated
    · obtain ⟨_, inner, _⟩ := Except.map_eq_ok_iff.mp evaluated
      cases asks with
      | clause asks => exact asks.resolves inner
    · cases evaluated
  · obtain ⟨_, inner, _⟩ := Except.map_eq_ok_iff.mp evaluated
    exact asks.resolves inner

theorem failsByAsking_of_argument {arg : Expression} {error : ConfigureError}
    (failed : env.argument locals arg = .error (.failed error)) : env.FailsByAsking locals arg error := by
  unfold argument at failed
  split at failed
  · split at failed
    · exact (failsByAsking_of_eval (Except.map_eq_error_iff.mp failed)).mono fun _ => .clause
    · cases failed
  · exact failsByAsking_of_eval (Except.map_eq_error_iff.mp failed)

/-- Arguments one of which asks for a text that does not resolve cannot be given. -/
theorem exists_arguments_eq_error {args : List Expression} {arg : Expression} (member : arg ∈ args)
    (asks : env.Asks locals arg text) {fault : ConfigureError}
    (unresolved : resolveText env.reach text = .error fault) : ∃ halt, env.arguments locals args = .error halt := by
  cases evaluated : env.arguments locals args with
  | error halt => exact ⟨halt, rfl⟩
  | ok given =>
    obtain ⟨_, _, single⟩ := (Except.forall₂_of_mapM_eq_ok evaluated).exists_right member
    obtain ⟨_, resolved⟩ := asks.resolves_of_argument single
    cases resolved.symm.trans unresolved

theorem failsByAsking_of_arguments {args : List Expression} {error : ConfigureError}
    (failed : env.arguments locals args = .error (.failed error)) :
    ∃ arg ∈ args, env.FailsByAsking locals arg error := by
  induction args with
  | nil => cases failed
  | cons arg later ih =>
    unfold arguments at failed
    rw [List.mapM_cons] at failed
    obtain first | ⟨_, _, failed⟩ := Except.bind_eq_error_iff.mp failed
    · exact ⟨arg, List.mem_cons_self, failsByAsking_of_argument first⟩
    · obtain ⟨other, member, fails⟩ := ih (Except.eq_error_of_bind_pure failed)
      exact ⟨other, List.mem_cons_of_mem _ member, fails⟩

end Environment

end RouteDepot.RouteClass.Direct
