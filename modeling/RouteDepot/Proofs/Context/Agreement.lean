import Mathlib.Data.List.Pairwise
import Mathlib.Data.List.Perm.Basic
import RouteDepot.Context.Store

/-! # Configurations that agree

Two configurations agree unless they are for the same component and differ. Agreement is symmetric, so whether a
batch can be held together with what is held already does not depend on the order of its entries, and this is exactly
what the check of a batch decides.
-/

namespace RouteDepot

namespace RestConfiguration

/-- Two configurations can be held together: they are for different components, or they are equal. -/
def Agrees (a b : RestConfiguration) : Prop := a.key = b.key → a = b

instance (a b : RestConfiguration) : Decidable (a.Agrees b) := inferInstanceAs (Decidable (a.key = b.key → a = b))

theorem Agrees.refl (a : RestConfiguration) : a.Agrees a := fun _ => rfl

theorem Agrees.symm {a b : RestConfiguration} (agrees : a.Agrees b) : b.Agrees a :=
  fun same => (agrees same.symm).symm

instance : Std.Symm Agrees := ⟨fun _ _ => Agrees.symm⟩

/-- When configurations agree pairwise, any two of them do, whatever their order. -/
theorem agrees_of_pairwise {all : List RestConfiguration} (pairwise : all.Pairwise Agrees) {a b : RestConfiguration}
    (first : a ∈ all) (second : b ∈ all) : a.Agrees b :=
  pairwise.forall_of_forall (fun c _ => Agrees.refl c) first second

end RestConfiguration

namespace Context

open RestConfiguration

variable {held batch first second : List RestConfiguration}

/-- A batch can be held together with what is held already. -/
def Accepts (held batch : List RestConfiguration) : Prop :=
  (∀ c ∈ batch, ∀ other ∈ held, other.Agrees c) ∧ batch.Pairwise Agrees

/-- Something is held for the component of a configuration that differs from it. -/
def Clashes (held : List RestConfiguration) (c : RestConfiguration) : Prop :=
  ∃ other ∈ held, other.key = c.key ∧ other ≠ c

theorem not_clashes_iff {c : RestConfiguration} : ¬ Clashes held c ↔ ∀ other ∈ held, other.Agrees c := by
  simp [Clashes, Agrees]

theorem clashes_iff {c : RestConfiguration} : Clashes held c ↔ ¬ ∀ other ∈ held, other.Agrees c :=
  iff_not_comm.mp not_clashes_iff.symm

theorem accepts_nil (held : List RestConfiguration) : Accepts held [] := ⟨by simp, .nil⟩

/-- A batch is accepted part by part, each part on top of the one before it. -/
theorem accepts_append : Accepts held (first ++ second) ↔ Accepts held first ∧ Accepts (held ++ first) second := by
  simp only [Accepts, List.mem_append, List.pairwise_append]
  constructor
  · rintro ⟨outside, inFirst, inSecond, across⟩
    refine ⟨⟨fun c member => outside c (.inl member), inFirst⟩, ?_, inSecond⟩
    rintro c member other (before | before)
    · exact outside c (.inr member) other before
    · exact across other before c member
  · rintro ⟨⟨outside, inFirst⟩, later, inSecond⟩
    refine ⟨?_, inFirst, inSecond, fun other before c member => later c member other (.inr before)⟩
    rintro c (member | member) other before
    · exact outside c member other before
    · exact later c member other (.inl before)

theorem accepts_cons {c : RestConfiguration} {later : List RestConfiguration} :
    Accepts held (c :: later) ↔ (∀ other ∈ held, other.Agrees c) ∧ Accepts (held ++ [c]) later := by
  rw [← List.singleton_append, accepts_append]
  simp [Accepts]

/-- Whether a batch is accepted does not depend on the order of its entries. -/
theorem Accepts.perm (accepts : Accepts held first) (permuted : second.Perm first) : Accepts held second :=
  ⟨fun c member => accepts.1 c (permuted.mem_iff.mp member),
    (permuted.pairwise_iff fun agrees => agrees.symm).mpr accepts.2⟩

/-! ### The check of a batch -/

theorem firstConflict_cons (held : List RestConfiguration) (c : RestConfiguration) (later : List RestConfiguration) :
    firstConflict held (c :: later) =
      if ∀ other ∈ held, other.Agrees c then firstConflict (held ++ [c]) later else some c.key := by
  have clashes : (held.any fun other => other.key == c.key && other != c) = true ↔ Clashes held c := by
    simp [Clashes]
  rw [firstConflict]
  by_cases agree : ∀ other ∈ held, other.Agrees c
  · rw [if_neg (fun clash => not_clashes_iff.mpr agree (clashes.mp clash)), if_pos agree]
  · rw [if_pos (clashes.mpr (clashes_iff.mpr agree)), if_neg agree]

/-- The check finds nothing exactly when the batch is accepted. -/
theorem firstConflict_eq_none_iff : firstConflict held batch = none ↔ Accepts held batch := by
  induction batch generalizing held with
  | nil => simp [firstConflict, accepts_nil]
  | cons c later ih =>
    rw [firstConflict_cons, accepts_cons, ← ih]
    split
    · next agree => exact ⟨fun none => ⟨agree, none⟩, And.right⟩
    · next clash => exact ⟨nofun, fun accepted => absurd accepted.1 clash⟩

/-- The check finds the first entry that does not agree with what is held or stands before it. -/
theorem firstConflict_eq_some_iff {component : String} :
    firstConflict held batch = some component ↔
      ∃ before c after, batch = before ++ c :: after ∧ Accepts held before ∧
        Clashes (held ++ before) c ∧ component = c.key := by
  induction batch generalizing held with
  | nil => simp [firstConflict]
  | cons c later ih =>
    rw [firstConflict_cons]
    split
    · next agree =>
      rw [ih]
      constructor
      · rintro ⟨before, d, after, rfl, accepts, clash, rfl⟩
        exact ⟨c :: before, d, after, rfl, accepts_cons.mpr ⟨agree, accepts⟩, by simpa using clash, rfl⟩
      · rintro ⟨before, d, after, split, accepts, clash, rfl⟩
        cases before with
        | nil =>
          obtain rfl := (List.cons.inj split).1
          exact absurd (by simpa using clash) (not_clashes_iff.mpr agree)
        | cons e before =>
          obtain ⟨rfl, rfl⟩ := List.cons.inj split
          exact ⟨before, d, after, rfl, (accepts_cons.mp accepts).2, by simpa using clash, rfl⟩
    · next clash =>
      constructor
      · intro found
        obtain rfl := Option.some.inj found
        exact ⟨[], c, later, rfl, accepts_nil held, by simpa using clashes_iff.mpr clash, rfl⟩
      · rintro ⟨before, d, after, split, accepts, _, rfl⟩
        cases before with
        | nil => rw [(List.cons.inj split).1]
        | cons e before =>
          -- The first entry would have to agree with everything that is held.
          obtain rfl := (List.cons.inj split).1
          exact absurd (accepts.1 c List.mem_cons_self) clash

/-- A batch is refused exactly when one of its entries clashes with what is held or stands before it. -/
theorem not_accepts_iff :
    ¬ Accepts held batch ↔ ∃ before c after, batch = before ++ c :: after ∧ Clashes (held ++ before) c := by
  constructor
  · intro refused
    rw [← firstConflict_eq_none_iff] at refused
    obtain ⟨component, found⟩ := Option.ne_none_iff_exists'.mp refused
    obtain ⟨before, c, after, split, _, clash, _⟩ := firstConflict_eq_some_iff.mp found
    exact ⟨before, c, after, split, clash⟩
  · rintro ⟨before, c, after, rfl, clash⟩ accepts
    have agree := (accepts_cons.mp (accepts_append.mp accepts).2).1
    exact not_clashes_iff.mpr agree clash

end Context

end RouteDepot
