import RouteDepot.Proofs.Lowering.Operand
import Mathlib.Data.List.Chain

/-! # Canonical operands

An operand is canonical when every concatenation in it, at whatever depth, has at least two parts, none of them a
concatenation and no two neighbours both constants. Appending keeps operands canonical, and a canonical operand is
determined by its parts, so that it does not matter in which order several operands are appended.
-/

namespace RouteDepot.RouteClass

namespace Operand

/-- Whether an operand is a constant. -/
def isConst : Operand → Bool
  | const _ => true
  | placeholders _ | concat _ => false

/-- Whether an operand is a concatenation. -/
def isConcat : Operand → Bool
  | concat _ => true
  | const _ | placeholders _ => false

/-- Two operands that may stand side by side in a concatenation: not both are constants. -/
def Apart (left right : Operand) : Prop := left.isConst = false ∨ right.isConst = false

/-- An operand whose concatenations, at every depth, have at least two parts, none of them a concatenation and no two
neighbours both constants. -/
inductive Canonical : Operand → Prop
  | const (value : Value) : Canonical (.const value)
  | placeholders {text : Operand} (inner : Canonical text) : Canonical (.placeholders text)
  | concat {parts : List Operand} (several : 2 ≤ parts.length) (flat : ∀ part ∈ parts, part.isConcat = false)
      (apart : parts.IsChain Apart) (inner : ∀ part ∈ parts, Canonical part) : Canonical (.concat parts)

/-! ### Merging constants -/

/-- A part in front of others; a constant in front of a constant is merged with it. -/
def prepend : Operand → List Operand → List Operand
  | const a, const b :: later => const (.str (a.display ++ b.display)) :: later
  | part, later => part :: later

theorem prepend_of_apart {part : Operand} {later : List Operand} (apart : ∀ next ∈ later.head?, part.Apart next) :
    prepend part later = part :: later := by
  unfold prepend
  split
  · simp [Apart, isConst] at apart
  · rfl

theorem prepend_ne_nil (part : Operand) (later : List Operand) : prepend part later ≠ [] := by
  unfold prepend
  split <;> exact List.cons_ne_nil _ _

/-- Two constants in front of others are merged with them one after the other. -/
theorem prepend_prepend (a b : Value) (later : List Operand) :
    prepend (const a) (prepend (const b) later) = prepend (const (.str (a.display ++ b.display))) later := by
  cases later with
  | nil => rfl
  | cons next later => cases next <;> simp [prepend, Value.display, String.append_assoc]

/-- Neighbouring constants are merged by putting the parts in front of each other, the last one first. -/
theorem mergeConstants_eq_foldr (parts : List Operand) : mergeConstants parts = parts.foldr prepend [] := by
  fun_induction mergeConstants parts with
  | case1 a b later ih => rw [ih, List.foldr_cons, List.foldr_cons, List.foldr_cons, prepend_prepend]
  | case2 part later unmerged ih =>
    rw [ih, List.foldr_cons, prepend_of_apart]
    intro next first
    -- The first of the later parts is a constant after merging only if it was one before.
    cases later with
    | nil => cases first
    | cons other later =>
      cases part with
      | placeholders _ | concat _ => exact .inl rfl
      | const a =>
        cases other with
        | const b => exact (unmerged a b later rfl rfl).elim
        | placeholders _ | concat _ =>
          obtain rfl := Option.some.inj first
          exact .inr rfl
  | case3 => rfl

theorem mergeConstants_cons (part : Operand) (later : List Operand) :
    mergeConstants (part :: later) = prepend part (mergeConstants later) := by
  simp only [mergeConstants_eq_foldr, List.foldr_cons]

/-- Parts as they stand in a canonical concatenation, save that there may be fewer than two. -/
structure Tidy (parts : List Operand) : Prop where
  canonical : ∀ part ∈ parts, part.Canonical
  flat : ∀ part ∈ parts, part.isConcat = false
  apart : parts.IsChain Apart

theorem tidy_nil : Tidy [] := ⟨List.forall_mem_nil _, List.forall_mem_nil _, .nil⟩

theorem tidy_cons {part : Operand} {later : List Operand} :
    Tidy (part :: later) ↔
      part.Canonical ∧ part.isConcat = false ∧ (∀ next ∈ later.head?, part.Apart next) ∧ Tidy later := by
  constructor
  · rintro ⟨canonical, flat, apart⟩
    obtain ⟨first, rest⟩ := List.forall_mem_cons.mp canonical
    obtain ⟨firstFlat, restFlat⟩ := List.forall_mem_cons.mp flat
    obtain ⟨beside, restApart⟩ := List.isChain_cons.mp apart
    exact ⟨first, firstFlat, beside, rest, restFlat, restApart⟩
  · rintro ⟨first, firstFlat, beside, rest, restFlat, restApart⟩
    exact ⟨List.forall_mem_cons.mpr ⟨first, rest⟩, List.forall_mem_cons.mpr ⟨firstFlat, restFlat⟩,
      List.isChain_cons.mpr ⟨beside, restApart⟩⟩

theorem Tidy.prepend {part : Operand} {later : List Operand} (canonical : part.Canonical)
    (flat : part.isConcat = false) (tidy : Tidy later) : Tidy (prepend part later) := by
  unfold Operand.prepend
  split
  · obtain ⟨_, _, beside, rest⟩ := tidy_cons.mp tidy
    exact tidy_cons.mpr ⟨.const _, rfl, fun next first => .inr ((beside next first).resolve_left nofun), rest⟩
  · rename_i unmerged
    refine tidy_cons.mpr ⟨canonical, flat, fun next first => ?_, tidy⟩
    cases part with
    | placeholders _ | concat _ => exact .inl rfl
    | const a =>
      cases next with
      | placeholders _ | concat _ => exact .inr rfl
      | const b =>
        obtain ⟨others, rfl⟩ := List.head?_eq_some_iff.mp first
        exact (unmerged a b others rfl rfl).elim

/-- Merging leaves no two neighbouring constants. -/
theorem tidy_mergeConstants {parts : List Operand} (canonical : ∀ part ∈ parts, part.Canonical)
    (flat : ∀ part ∈ parts, part.isConcat = false) : Tidy (mergeConstants parts) := by
  induction parts with
  | nil =>
    rw [mergeConstants]
    exact tidy_nil
  | cons part later ih =>
    obtain ⟨first, rest⟩ := List.forall_mem_cons.mp canonical
    obtain ⟨firstFlat, restFlat⟩ := List.forall_mem_cons.mp flat
    rw [mergeConstants_cons]
    exact (ih rest restFlat).prepend first firstFlat

/-- Parts without neighbouring constants stay as they are. -/
theorem Tidy.mergeConstants_eq {parts : List Operand} (tidy : Tidy parts) : mergeConstants parts = parts := by
  induction parts with
  | nil => rw [mergeConstants]
  | cons part later ih =>
    obtain ⟨_, _, beside, rest⟩ := tidy_cons.mp tidy
    rw [mergeConstants_cons, ih rest, prepend_of_apart beside]

/-- Putting merged parts in front of others is putting the parts themselves there. -/
theorem foldr_prepend_mergeConstants (parts later : List Operand) :
    (mergeConstants parts).foldr prepend later = parts.foldr prepend later := by
  fun_induction mergeConstants parts with
  | case1 a b more ih => rw [ih, List.foldr_cons, List.foldr_cons, List.foldr_cons, prepend_prepend]
  | case2 part more _ ih => rw [List.foldr_cons, List.foldr_cons, ih]
  | case3 => rfl

/-- Of two lists of parts, both may be merged before they are joined. -/
theorem mergeConstants_append_merged (first later : List Operand) :
    mergeConstants (mergeConstants first ++ mergeConstants later) = mergeConstants (first ++ later) := by
  rw [mergeConstants_eq_foldr (_ ++ _), mergeConstants_eq_foldr (first ++ later), List.foldr_append, List.foldr_append,
    foldr_prepend_mergeConstants, foldr_prepend_mergeConstants]

/-! ### Parts -/

theorem parts_of_flat {operand : Operand} (flat : operand.isConcat = false) : operand.parts = [operand] := by
  cases operand with
  | const _ | placeholders _ => rfl
  | concat _ => cases flat

namespace Canonical

variable {operand left right : Operand}

theorem tidy_parts (canonical : operand.Canonical) : Tidy operand.parts := by
  cases canonical with
  | const value => exact tidy_cons.mpr ⟨.const value, rfl, nofun, tidy_nil⟩
  | placeholders inner => exact tidy_cons.mpr ⟨.placeholders inner, rfl, nofun, tidy_nil⟩
  | concat several flat apart inner => exact ⟨inner, flat, apart⟩

theorem parts_ne_nil (canonical : operand.Canonical) : operand.parts ≠ [] := by
  cases canonical with
  | const _ | placeholders _ => exact List.cons_ne_nil _ _
  | concat several _ _ _ =>
    rintro rfl
    cases several

/-- A canonical operand with a single part is that part. -/
theorem eq_of_parts_eq_singleton {part : Operand} (canonical : operand.Canonical) (only : operand.parts = [part]) :
    operand = part := by
  cases canonical with
  | const _ | placeholders _ => exact List.singleton_injective only
  | concat several _ _ _ =>
    obtain rfl : _ = [part] := only
    simp at several

/-- Canonical operands with the same parts are the same. -/
theorem eq_of_parts_eq (leftCanonical : left.Canonical) (rightCanonical : right.Canonical)
    (same : left.parts = right.parts) : left = right := by
  cases left with
  | const _ | placeholders _ => exact (rightCanonical.eq_of_parts_eq_singleton same.symm).symm
  | concat parts =>
    cases right with
    | const _ | placeholders _ => exact leftCanonical.eq_of_parts_eq_singleton same
    | concat _ => exact congrArg Operand.concat same

end Canonical

/-! ### Appending -/

/-- Several parts that are merged to a single constant are merged to a text. -/
theorem exists_str_of_mergeConstants {first second : Operand} {later : List Operand} {value : Value}
    (merged : mergeConstants (first :: second :: later) = [const value]) : ∃ text, value = .str text := by
  rw [mergeConstants_cons, mergeConstants_cons] at merged
  unfold prepend at merged
  split at merged
  · exact ⟨_, (const.inj (List.cons.inj merged).1).symm⟩
  · exact absurd (List.cons.inj merged).2 (prepend_ne_nil _ _)

variable {left right : Operand}

theorem tidy_merged_parts (leftCanonical : left.Canonical) (rightCanonical : right.Canonical) :
    Tidy (mergeConstants (left.parts ++ right.parts)) := by
  have first := leftCanonical.tidy_parts
  have second := rightCanonical.tidy_parts
  exact tidy_mergeConstants (List.forall_mem_append.mpr ⟨first.canonical, second.canonical⟩)
    (List.forall_mem_append.mpr ⟨first.flat, second.flat⟩)

/-- Appending canonical operands gives a canonical one, whose parts are those of both with neighbouring constants
merged. -/
theorem canonical_append_and_parts (leftCanonical : left.Canonical) (rightCanonical : right.Canonical) :
    (left.append right).Canonical ∧ (left.append right).parts = mergeConstants (left.parts ++ right.parts) := by
  have tidy := tidy_merged_parts leftCanonical rightCanonical
  obtain ⟨first, before, leftParts⟩ := List.exists_cons_of_ne_nil leftCanonical.parts_ne_nil
  obtain ⟨second, after, rightParts⟩ := List.exists_cons_of_ne_nil rightCanonical.parts_ne_nil
  unfold append
  split
  · next none =>
    rw [leftParts, List.cons_append, mergeConstants_cons] at none
    exact absurd none (prepend_ne_nil _ _)
  · next value one =>
    -- A single constant is left only of several, so that it is a text already.
    obtain ⟨text, rfl⟩ : ∃ text, value = .str text := by
      rw [leftParts, rightParts] at one
      cases before with
      | nil => exact exists_str_of_mergeConstants one
      | cons _ _ => exact exists_str_of_mergeConstants one
    exact ⟨.const _, one.symm⟩
  · next part _ one =>
    rw [one] at tidy ⊢
    obtain ⟨canonical, flat, _⟩ := tidy_cons.mp tidy
    exact ⟨canonical, parts_of_flat flat⟩
  · next notNone _ notOne =>
    refine ⟨.concat ?_ tidy.flat tidy.apart tidy.canonical, rfl⟩
    rcases merged : mergeConstants (left.parts ++ right.parts) with _ | ⟨one, _ | ⟨two, more⟩⟩
    · exact absurd merged notNone
    · exact absurd merged (notOne one)
    · simp

/-- An appended operand is a text. -/
theorem type_append (left right : Operand) : (left.append right).type = .str := by
  unfold append
  split
  · rfl
  · rfl
  · next notConst _ => exact type_eq_str notConst
  · rfl

/-- A sum in which one side is a text is lowered to the appended operand. -/
theorem plus_of_text {span : Span} (text : left.type = .str ∨ right.type = .str) :
    left.plus span right = .done (left.append right) := by
  unfold plus
  split
  · rcases text with text | text <;> cases text
  · rw [if_pos text]

end Operand

end RouteDepot.RouteClass
