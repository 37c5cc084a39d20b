import Mathlib.Data.List.Forall2
import Mathlib.Data.Option.Defs

/-! # Results that may be faults

When a sequence of computations has a value, so has each of them; a change of the faults goes through a sequence step
by step. An item of one of two related lists has a partner in the other, and items with partners have a list of them;
what implies a relation implies that of options.
-/

theorem Option.Rel.imp {α β : Type} {R S : α → β → Prop} {a : Option α} {b : Option β} (related : Option.Rel R a b)
    (implies : ∀ a b, R a b → S a b) : Option.Rel S a b := by
  cases related with
  | none => exact .none
  | some holds => exact .some (implies _ _ holds)

namespace List

variable {α β : Type} {R : α → β → Prop}

theorem Forall₂.exists_right {items : List α} {others : List β} (related : Forall₂ R items others) {item : α}
    (member : item ∈ items) : ∃ other ∈ others, R item other := by
  induction related with
  | nil => cases member
  | cons first _ ih =>
    rcases mem_cons.mp member with rfl | member
    · exact ⟨_, mem_cons_self, first⟩
    · obtain ⟨other, found, related⟩ := ih member
      exact ⟨other, mem_cons_of_mem _ found, related⟩

theorem Forall₂.exists_left {items : List α} {others : List β} (related : Forall₂ R items others) {other : β}
    (member : other ∈ others) : ∃ item ∈ items, R item other :=
  Forall₂.exists_right (R := fun b a => R a b) related.flip member

/-- Items that each have a partner have a list of partners. -/
theorem exists_forall₂ {items : List α} (partner : ∀ item ∈ items, ∃ other, R item other) :
    ∃ others, Forall₂ R items others := by
  induction items with
  | nil => exact ⟨[], .nil⟩
  | cons item items ih =>
    obtain ⟨⟨other, first⟩, rest⟩ := forall_mem_cons.mp partner
    obtain ⟨others, rest⟩ := ih rest
    exact ⟨other :: others, .cons first rest⟩

/-- Among related items, the first ones of a kind are related, when related items are of the same kinds. -/
theorem Forall₂.find? {as : List α} {bs : List β} (related : Forall₂ R as bs) (kind : α → Bool) (kind' : β → Bool)
    (kinds : ∀ a b, R a b → kind a = kind' b) : Option.Rel R (as.find? kind) (bs.find? kind') := by
  induction related with
  | nil => exact .none
  | @cons a b _ _ head _ ih =>
    rw [List.find?_cons, List.find?_cons, kinds a b head]
    cases kind' b with
    | true => exact .some head
    | false => exact ih

end List

namespace Except

variable {α β ε φ : Type}

@[simp] theorem bind_ok (a : α) (next : α → Except ε β) : ((.ok a : Except ε α) >>= next) = next a := rfl

@[simp] theorem bind_error (fault : ε) (next : α → Except ε β) :
    ((.error fault : Except ε α) >>= next) = .error fault := rfl

@[simp] theorem pure_eq_ok (a : α) : (pure a : Except ε α) = .ok a := rfl

theorem bind_eq_ok_iff {first : Except ε α} {next : α → Except ε β} {b : β} :
    (first >>= next) = .ok b ↔ ∃ a, first = .ok a ∧ next a = .ok b := by
  cases first <;> simp

theorem bind_eq_error_iff {first : Except ε α} {next : α → Except ε β} {fault : ε} :
    (first >>= next) = .error fault ↔ first = .error fault ∨ ∃ a, first = .ok a ∧ next a = .error fault := by
  cases first <;> simp

@[simp] theorem map_eq_error_iff {result : Except ε α} {f : α → β} {fault : ε} :
    f <$> result = .error fault ↔ result = .error fault := by
  cases result <;> simp

theorem map_eq_ok_iff {result : Except ε α} {f : α → β} {b : β} :
    f <$> result = .ok b ↔ ∃ a, result = .ok a ∧ f a = b := by
  cases result <;> simp

/-- A computation whose value is only made into another one fails by itself. -/
theorem eq_error_of_bind_pure {result : Except ε α} {f : α → β} {fault : ε}
    (failed : (result >>= fun a => pure (f a)) = .error fault) : result = .error fault := by
  obtain failed | ⟨_, _, failed⟩ := bind_eq_error_iff.mp failed
  · exact failed
  · cases failed

@[simp] theorem mapError_ok (f : ε → φ) (a : α) : Except.mapError f (.ok a : Except ε α) = .ok a := rfl

@[simp] theorem mapError_error (f : ε → φ) (error : ε) :
    Except.mapError f (.error error : Except ε α) = .error (f error) := rfl

theorem mapError_eq_ok_iff {f : ε → φ} {result : Except ε α} {a : α} : result.mapError f = .ok a ↔ result = .ok a := by
  cases result <;> simp [Except.mapError]

theorem mapError_eq_error_iff {f : ε → φ} {result : Except ε α} {fault : φ} :
    result.mapError f = .error fault ↔ ∃ error, result = .error error ∧ f error = fault := by
  cases result <;> simp [Except.mapError]

theorem exists_of_isOk {result : Except ε α} (success : result.isOk = true) : ∃ a, result = .ok a := by
  cases result with
  | ok a => exact ⟨a, rfl⟩
  | error => cases success

theorem eq_ok_of_toOption {result : Except ε α} {a : α} (value : result.toOption = some a) : result = .ok a := by
  cases result with
  | ok b => exact congrArg _ (Option.some.inj value)
  | error => cases value

/-- Changing the faults of a sequence is changing those of its parts. -/
theorem mapError_bind (f : ε → φ) (first : Except ε α) (next : α → Except ε β) :
    (first >>= next).mapError f = first.mapError f >>= fun a => (next a).mapError f := by
  cases first <;> rfl

theorem mapError_map (f : ε → φ) (g : α → β) (result : Except ε α) :
    (g <$> result).mapError f = g <$> result.mapError f := by
  cases result <;> rfl

/-- A fold that fails does so at one of the items, after the ones before it. -/
theorem exists_of_foldlM_eq_error {f : β → α → Except ε β} {items : List α} {start : β} {fault : ε}
    (failed : items.foldlM f start = .error fault) :
    ∃ before item after state, items = before ++ item :: after ∧ before.foldlM f start = .ok state ∧
      f state item = .error fault := by
  induction items generalizing start with
  | nil => cases failed
  | cons item items ih =>
    rw [List.foldlM_cons] at failed
    cases first : f start item with
    | error other =>
      rw [first] at failed
      exact ⟨[], item, items, start, rfl, rfl, first.trans failed⟩
    | ok next =>
      rw [first] at failed
      obtain ⟨before, other, after, state, rfl, ran, fails⟩ := ih failed
      refine ⟨item :: before, other, after, state, rfl, ?_, fails⟩
      rw [List.foldlM_cons, first]
      exact ran

/-- A computation on every item of a list has a value when it has one on each. -/
theorem forall₂_of_mapM_eq_ok {f : α → Except ε β} {items : List α} {results : List β}
    (success : items.mapM f = .ok results) : List.Forall₂ (fun item result => f item = .ok result) items results := by
  induction items generalizing results with
  | nil =>
    obtain rfl := ok.inj success
    exact .nil
  | cons item items ih =>
    rw [List.mapM_cons, bind_eq_ok_iff] at success
    obtain ⟨result, first, success⟩ := success
    obtain ⟨others, rest, success⟩ := bind_eq_ok_iff.mp success
    obtain rfl := ok.inj success
    exact .cons first (ih rest)

theorem mapM_eq_ok_iff {f : α → Except ε β} {items : List α} {results : List β} :
    items.mapM f = .ok results ↔ List.Forall₂ (fun item result => f item = .ok result) items results := by
  refine ⟨forall₂_of_mapM_eq_ok, fun related => ?_⟩
  induction related with
  | nil => rfl
  | cons first _ ih => rw [List.mapM_cons, first, bind_ok, ih, bind_ok, pure_eq_ok]

end Except
