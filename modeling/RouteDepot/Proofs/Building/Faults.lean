import RouteDepot.Proofs.Safety.Arguments

/-! # First failures

What is built from a sequence fails with the fault of the first part that fails. That holds of the calls of a chain,
where failing may depend on the calls before, and of the operands of a call.
-/

/-- A computation whose value is only made into another one fails exactly when it fails by itself. -/
theorem Except.bind_value_eq_error_iff {α β ε : Type} {result : Except ε α} {f : α → β} {fault : ε} :
    (result >>= fun a => .ok (f a)) = .error fault ↔ result = .error fault := by
  cases result <;> simp

namespace RouteDepot

variable {α σ ε : Type}

/-- A fault is that of the first item of a list that fails, when each item may fail for what stands before it. -/
def FirstFailure (fails : List α → α → ε → Prop) (items : List α) (fault : ε) : Prop :=
  ∃ before item after, items = before ++ item :: after ∧ fails before item fault ∧
    ∀ earlier other later, before = earlier ++ other :: later → ∀ fault, ¬ fails earlier other fault

variable {fails : List α → α → ε → Prop} {fault : ε}

theorem FirstFailure.exists_mem {items : List α} (failure : FirstFailure fails items fault) :
    ∃ before, ∃ item ∈ items, fails before item fault := by
  obtain ⟨before, item, after, rfl, fails, _⟩ := failure
  exact ⟨before, item, by simp, fails⟩

theorem not_firstFailure_nil : ¬ FirstFailure fails [] fault := by
  rintro ⟨before, item, after, same, _⟩
  simp at same

theorem firstFailure_cons {item : α} {items : List α} :
    FirstFailure fails (item :: items) fault ↔
      fails [] item fault ∨
        (∀ fault, ¬ fails [] item fault) ∧ FirstFailure (fun before => fails (item :: before)) items fault := by
  constructor
  · rintro ⟨before, other, after, same, fails, none⟩
    cases before with
    | nil =>
      obtain ⟨rfl, rfl⟩ := List.cons.inj same
      exact .inl fails
    | cons first before =>
      obtain ⟨rfl, rfl⟩ := List.cons.inj same
      refine .inr ⟨none [] item before rfl, before, other, after, rfl, fails, ?_⟩
      rintro earlier another later rfl
      exact none (item :: earlier) another later rfl
  · rintro (fails | ⟨noneFirst, before, other, after, rfl, fails, none⟩)
    · exact ⟨[], item, items, rfl, fails, by simp⟩
    · refine ⟨item :: before, other, after, rfl, fails, ?_⟩
      intro earlier another later same
      cases earlier with
      | nil =>
        obtain ⟨rfl, rfl⟩ := List.cons.inj same
        exact noneFirst
      | cons first earlier =>
        obtain ⟨rfl, rfl⟩ := List.cons.inj same
        exact none earlier another later rfl

theorem firstFailure_singleton {item : α} : FirstFailure fails [item] fault ↔ fails [] item fault := by
  simp [firstFailure_cons, not_firstFailure_nil]

/-- A fold fails with the fault of the first item that fails in the state that the items before it lead to. -/
theorem foldlM_eq_error_iff {f : σ → α → Except ε σ} {start : σ}
    (step : ∀ before state, before.foldlM f start = .ok state →
      ∀ item fault, f state item = .error fault ↔ fails before item fault) {items : List α} :
    items.foldlM f start = .error fault ↔ FirstFailure fails items fault := by
  have first {items : List α} {fault : ε} (failed : items.foldlM f start = .error fault) :
      FirstFailure fails items fault := by
    obtain ⟨before, item, after, state, rfl, ran, failed⟩ := Except.exists_of_foldlM_eq_error failed
    refine ⟨before, item, after, rfl, (step before state ran item fault).mp failed, ?_⟩
    -- What stands before the failing item has run to its end, so that none of it has failed.
    rintro earlier other later rfl fault fails
    rw [List.foldlM_append, Except.bind_eq_ok_iff] at ran
    obtain ⟨between, ranEarlier, ran⟩ := ran
    rw [List.foldlM_cons, (step earlier between ranEarlier other fault).mpr fails] at ran
    cases ran
  refine ⟨first, ?_⟩
  rintro ⟨before, item, after, rfl, fails, none⟩
  cases ran : before.foldlM f start with
  | error other =>
    obtain ⟨earlier, another, later, same, fails, _⟩ := first ran
    exact absurd fails (none earlier another later same other)
  | ok state =>
    rw [List.foldlM_append, ran, Except.bind_ok, List.foldlM_cons, (step before state ran item fault).mpr fails]
    rfl

namespace RouteClass

open Operand (Reach evalOptional evalTexts)

variable {reach : Reach} {fault : ConfigureError}

/-! ### Operands -/

/-- An operand has a value. -/
def Operand.Evaluates (reach : Reach) (operand : Operand) : Prop := ∃ value, operand.eval reach = .ok value

/-- A fault is that of the first of several operands that has no value. -/
abbrev FirstUnevaluated (reach : Reach) : List Operand → ConfigureError → Prop :=
  FirstFailure fun _ operand fault => operand.eval reach = .error fault

namespace Operand

/-- The value of an operand is shown as a text. -/
def Shows (reach : Reach) (operand : Operand) (text : String) : Prop :=
  ∃ value, operand.eval reach = .ok value ∧ value.display = text

theorem Shows.const (value : Value) : (Operand.const value).Shows reach value.display := ⟨value, by rw [eval], rfl⟩

theorem Evaluates.exists_shows {operand : Operand} (evaluates : operand.Evaluates reach) :
    ∃ text, operand.Shows reach text := by
  obtain ⟨value, evaluated⟩ := evaluates
  exact ⟨_, value, evaluated, rfl⟩

theorem Shows.unique {operand : Operand} {text text' : String} (shown : operand.Shows reach text)
    (shown' : operand.Shows reach text') : text = text' := by
  obtain ⟨value, evaluated, rfl⟩ := shown
  obtain ⟨value', evaluated', rfl⟩ := shown'
  rw [Except.ok.inj (evaluated.symm.trans evaluated')]

theorem shows_rightUnique : Relator.RightUnique (Shows reach) := fun _ _ _ => Shows.unique

theorem evalText_eq_ok_iff {operand : Operand} {text : String} :
    operand.evalText reach = .ok text ↔ operand.Shows reach text := Except.map_eq_ok_iff

theorem evalOptional_eq_ok_iff {operand? : Option Operand} {text? : Option String} :
    evalOptional reach operand? = .ok text? ↔ Option.Rel (Shows reach) operand? text? := by
  cases operand? with
  | none =>
    constructor
    · intro evaluated
      obtain rfl := Except.ok.inj evaluated
      exact .none
    · rintro ⟨⟩
      rfl
  | some operand =>
    simp only [evalOptional, Except.map_eq_ok_iff, evalText_eq_ok_iff]
    constructor
    · rintro ⟨text, shown, rfl⟩
      exact .some shown
    · rintro (shown | _)
      exact ⟨_, shown, rfl⟩

/-- Operands are evaluated to texts when each of them is shown as its text. -/
theorem evalTexts_eq_ok_iff {operands : List Operand} {texts : List String} :
    evalTexts reach operands = .ok texts ↔ List.Forall₂ (Shows reach) operands texts := by
  induction operands generalizing texts with
  | nil => simp [evalTexts, eq_comm]
  | cons operand later ih =>
    simp only [evalTexts, Except.bind_eq_ok_iff, Except.pure_eq_ok, Except.ok.injEq, ih, List.forall₂_cons_left_iff,
      Shows]
    constructor
    · rintro ⟨value, evaluated, rest, shown, rfl⟩
      exact ⟨_, rest, ⟨value, evaluated, rfl⟩, shown, rfl⟩
    · rintro ⟨_, rest, ⟨value, evaluated, rfl⟩, shown, rfl⟩
      exact ⟨value, evaluated, rest, shown, rfl⟩

theorem Evaluates.ne_error {operand : Operand} (evaluates : operand.Evaluates reach) :
    operand.eval reach ≠ .error fault := by
  obtain ⟨value, evaluated⟩ := evaluates
  rw [evaluated]
  exact nofun

theorem not_firstUnevaluated {operands : List Operand} (evaluate : ∀ operand ∈ operands, operand.Evaluates reach) :
    ¬ FirstUnevaluated reach operands fault := by
  intro failure
  obtain ⟨_, operand, member, failed⟩ := failure.exists_mem
  exact (evaluate operand member).ne_error failed

theorem evalText_eq_error_iff {operand : Operand} :
    operand.evalText reach = .error fault ↔ operand.eval reach = .error fault := Except.map_eq_error_iff

theorem evalOptional_eq_error_iff {operand? : Option Operand} :
    evalOptional reach operand? = .error fault ↔ FirstUnevaluated reach operand?.toList fault := by
  cases operand? with
  | none => simp [evalOptional, not_firstFailure_nil]
  | some operand => simp [evalOptional, firstFailure_singleton, evalText_eq_error_iff]

theorem evalTexts_eq_error_iff {operands : List Operand} :
    evalTexts reach operands = .error fault ↔ FirstUnevaluated reach operands fault := by
  induction operands with
  | nil => simp [evalTexts, not_firstFailure_nil]
  | cons operand later ih =>
    simp only [FirstUnevaluated] at ih ⊢
    rw [evalTexts, firstFailure_cons, ← ih]
    cases evaluated : operand.eval reach with
    | error other => simp
    | ok value => cases evalTexts reach later <;> simp

end Operand

theorem ClauseOperand.eval_eq_error_iff {clause : ClauseOperand} :
    clause.eval reach = .error fault ↔ clause.text.eval reach = .error fault := by
  simp [ClauseOperand.eval, Except.bind_value_eq_error_iff, Operand.evalText_eq_error_iff]

theorem ClauseOperand.shows_of_eval {clause : ClauseOperand} {shown : Clause} (evaluated : clause.eval reach = .ok shown) :
    clause.text.Shows reach shown.text := by
  obtain ⟨text, shows, same⟩ := Except.bind_eq_ok_iff.mp evaluated
  obtain rfl := Except.ok.inj same
  exact Operand.evalText_eq_ok_iff.mp shows

/-- The operands of a call on a route, in the order in which they are evaluated. -/
def RouteCall.operands (call : RouteCall) : List Operand := call.arguments.map Prod.fst

/-- The operands of a call on a REST service. -/
def RestCall.operands (call : RestCall) : List Operand := call.arguments.map Prod.fst

end RouteClass

end RouteDepot
