import RouteDepot.RouteClass.Lowering.Lowered
import Mathlib.Data.List.Forall2

/-! # Lowering without faults

A lowering that reports nothing is the plain value `Lowered.done value`. The lemmas here take such a lowering apart:
each says which results of the parts make the result of the whole free of faults.
-/

namespace RouteDepot.RouteClass.Lowered

variable {α β : Type}

@[simp] theorem done_inj {a b : α} : done a = done b ↔ a = b :=
  ⟨fun same => Option.some.inj (congrArg value? same), fun same => same ▸ rfl⟩

@[simp] theorem pure_eq_done (a : α) : (pure a : Lowered α) = done a := rfl

@[simp] theorem fail_ne_done {span : Span} {fault : SemanticFault} {a : α} : fail span fault ≠ done a :=
  fun same => Option.some_ne_none a (congrArg value? same).symm

@[simp] theorem report_ne_done {span : Span} {fault : SemanticFault} {u : Unit} : report span fault ≠ done u :=
  fun same => List.cons_ne_nil _ _ (congrArg faults same)

theorem eq_done_iff {result : Lowered α} {a : α} :
    result = done a ↔ result.value? = some a ∧ result.faults = [] := by
  obtain ⟨value?, faults⟩ := result
  simp [done]

/-- A sequence has no faults when both of its parts have none. -/
@[simp] theorem bind_eq_done_iff {first : Lowered α} {next : α → Lowered β} {b : β} :
    (first >>= next) = done b ↔ ∃ a, first = done a ∧ next a = done b := by
  change first.andThen next = done b ↔ _
  obtain ⟨_ | a, faults⟩ := first
  · simp [andThen, done]
  · simp only [andThen, eq_done_iff, List.append_eq_nil_iff, Option.some.injEq]
    constructor
    · rintro ⟨value, rfl, rest⟩
      exact ⟨a, ⟨rfl, rfl⟩, value, rest⟩
    · rintro ⟨_, ⟨rfl, rfl⟩, value, rest⟩
      exact ⟨value, rfl, rest⟩

@[simp] theorem map_eq_done_iff {result : Lowered α} {f : α → β} {b : β} :
    f <$> result = done b ↔ ∃ a, result = done a ∧ f a = b := by
  change (result >>= fun a => pure (f a)) = done b ↔ _
  simp

@[simp] theorem both_eq_done_iff {first : Lowered α} {second : Lowered β} {pair : α × β} :
    first.both second = done pair ↔ first = done pair.1 ∧ second = done pair.2 := by
  obtain ⟨_ | a, faults⟩ := first <;> obtain ⟨_ | b, more⟩ := second <;>
    simp [both, eq_done_iff, Prod.ext_iff]
  tauto

@[simp] theorem attempt_eq_done_iff {result : Lowered α} {value? : Option α} :
    result.attempt = done value? ↔ result.value? = value? ∧ result.faults = [] := by
  simp [attempt, eq_done_iff]

/-- A list of lowerings has no faults when each of them has none. -/
theorem all_eq_done_iff {results : List (Lowered α)} {values : List α} :
    all results = done values ↔ List.Forall₂ (fun result value => result = done value) results values := by
  induction results generalizing values with
  | nil => simp [all, eq_comm]
  | cons first later ih =>
    simp only [all, map_eq_done_iff, both_eq_done_iff, Prod.exists, List.forall₂_cons_left_iff, ih]
    constructor
    · rintro ⟨value, values, ⟨head, tail⟩, rfl⟩
      exact ⟨value, values, head, tail, rfl⟩
    · rintro ⟨value, values, head, tail, rfl⟩
      exact ⟨value, values, ⟨head, tail⟩, rfl⟩

/-- Lowering the items of a list one by one. -/
theorem all_map_eq_done_iff {items : List β} {lower : β → Lowered α} {values : List α} :
    all (items.map lower) = done values ↔ List.Forall₂ (fun item value => lower item = done value) items values := by
  rw [all_eq_done_iff, List.forall₂_map_left_iff]

/-! ### Values and faults of combined results -/

theorem value?_bind (first : Lowered α) (next : α → Lowered β) :
    (first >>= next).value? = first.value?.bind fun a => (next a).value? := by
  change (first.andThen next).value? = _
  obtain ⟨_ | a, faults⟩ := first <;> rfl

theorem value?_bind_eq_some_iff {first : Lowered α} {next : α → Lowered β} {b : β} :
    (first >>= next).value? = some b ↔ ∃ a, first.value? = some a ∧ (next a).value? = some b := by
  rw [value?_bind, Option.bind_eq_some_iff]

/-- What follows a result matters for its value alone. -/
theorem bind_eq_bind {first : Lowered α} {next other : α → Lowered β}
    (same : ∀ a, first.value? = some a → next a = other a) : (first >>= next) = (first >>= other) := by
  change first.andThen next = first.andThen other
  obtain ⟨_ | a, faults⟩ := first
  · rfl
  · simp only [andThen, same a rfl]

theorem value?_both_eq_some_iff {first : Lowered α} {second : Lowered β} {pair : α × β} :
    (first.both second).value? = some pair ↔ first.value? = some pair.1 ∧ second.value? = some pair.2 := by
  obtain ⟨a, b⟩ := pair
  simp [both, Option.bind_eq_some_iff]

theorem map_eq (f : α → β) (result : Lowered α) : f <$> result = ⟨result.value?.map f, result.faults⟩ := by
  change (result.andThen fun a => done (f a)) = _
  obtain ⟨_ | a, faults⟩ := result
  · rfl
  · simp [andThen, done]

/-! ### Missing values -/

/-- A result that lacks its value comes with a fault that says why. -/
def Explained (result : Lowered α) : Prop := result.faults = [] → ∃ a, result = done a

theorem explained_done (a : α) : (done a).Explained := fun _ => ⟨a, rfl⟩

theorem explained_fail {span : Span} {fault : SemanticFault} : (fail span fault : Lowered α).Explained :=
  fun clean => absurd clean (List.cons_ne_nil _ _)

theorem Explained.bind {first : Lowered α} {next : α → Lowered β} (explained : first.Explained)
    (later : ∀ a, (next a).Explained) : (first >>= next).Explained := by
  intro clean
  change (first.andThen next).faults = [] at clean
  obtain ⟨value?, faults⟩ := first
  cases value? with
  | none =>
    obtain ⟨a, same⟩ := explained clean
    exact absurd (congrArg value? same) (Option.some_ne_none a).symm
  | some a =>
    obtain ⟨rfl, rest⟩ := List.append_eq_nil_iff.mp clean
    obtain ⟨b, same⟩ := later a rest
    exact ⟨b, bind_eq_done_iff.mpr ⟨a, rfl, same⟩⟩

theorem Explained.both {first : Lowered α} {second : Lowered β} (left : first.Explained)
    (right : second.Explained) : (first.both second).Explained := by
  intro clean
  obtain ⟨leftClean, rightClean⟩ := List.append_eq_nil_iff.mp clean
  obtain ⟨a, rfl⟩ := left leftClean
  obtain ⟨b, rfl⟩ := right rightClean
  exact ⟨(a, b), rfl⟩

/-! ### Values or faults -/

/-- A result that is a value without faults, or faults without a value. -/
def Decided (result : Lowered α) : Prop := (∃ a, result = done a) ∨ result.value? = none ∧ result.faults ≠ []

theorem decided_done (a : α) : (done a).Decided := .inl ⟨a, rfl⟩

theorem decided_fail {span : Span} {fault : SemanticFault} : (fail span fault : Lowered α).Decided :=
  .inr ⟨rfl, List.cons_ne_nil _ _⟩

namespace Decided

theorem explained {result : Lowered α} (decided : result.Decided) : result.Explained := fun clean =>
  decided.resolve_right fun missing => missing.2 clean

theorem eq_done {result : Lowered α} {a : α} (decided : result.Decided) (value : result.value? = some a) :
    result = done a := by
  obtain ⟨b, rfl⟩ | ⟨missing, _⟩ := decided
  · exact congrArg done (Option.some.inj value)
  · rw [missing] at value
    cases value

theorem bind {first : Lowered α} {next : α → Lowered β} (decided : first.Decided) (later : ∀ a, (next a).Decided) :
    (first >>= next).Decided := by
  obtain ⟨a, rfl⟩ | ⟨missing, faults⟩ := decided
  · exact later a
  · obtain ⟨value?, reported⟩ := first
    obtain rfl : value? = none := missing
    exact .inr ⟨rfl, faults⟩

theorem both {first : Lowered α} {second : Lowered β} (left : first.Decided) (right : second.Decided) :
    (first.both second).Decided := by
  obtain ⟨a, rfl⟩ | ⟨missing, faults⟩ := left
  · obtain ⟨b, rfl⟩ | ⟨missing, faults⟩ := right
    · exact .inl ⟨(a, b), rfl⟩
    · exact .inr ⟨by simp [Lowered.both, missing], by simpa [Lowered.both, done] using faults⟩
  · exact .inr ⟨by simp [Lowered.both, missing], List.append_ne_nil_of_left_ne_nil faults _⟩

end Decided

end RouteDepot.RouteClass.Lowered
