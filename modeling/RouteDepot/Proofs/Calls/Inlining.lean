import Mathlib.Logic.Relation
import RouteDepot.Proofs.Lowering.Exits
import RouteDepot.Proofs.Running

/-! # Calls in place

A call can be replaced by what the called method does. Where calls are nested no deeper than a bound, replacing them
again and again leads to one list of instructions without calls, in whatever order they are replaced, and running that
list is running the instructions with their calls.
-/

namespace RouteDepot.RouteClass

open Operand (Reach)

/-- Instructions without a return at their end. -/
def withoutReturn (instructions : List Instruction) : List Instruction :=
  match instructions.getLast? with
  | some .return => instructions.dropLast
  | _ => instructions

/-- Instructions that leave their body at the end only do not return when a return there is dropped. -/
theorem return_notMem_withoutReturn {instructions : List Instruction} (exitsLast : ExitsLast instructions) :
    .return ∉ withoutReturn instructions := by
  intro member
  unfold withoutReturn at member
  split at member
  · cases exitsLast _ member
  · rename_i last
    obtain rfl | ⟨front, final, rfl⟩ := List.eq_nil_or_concat instructions
    · cases member
    · rw [List.concat_eq_append] at *
      obtain member | member := List.mem_append.mp member
      · cases exitsLast _ (by simpa using member)
      · obtain rfl := List.mem_singleton.mp member
        exact last (by simp)

/-- A return at the end of a body does nothing. -/
theorem runInstructions_withoutReturn {reach : Reach} {call : String → Run Unit} {instructions : List Instruction}
    (exitsLast : ExitsLast instructions) :
    runInstructions reach call (withoutReturn instructions) = runInstructions reach call instructions := by
  unfold withoutReturn
  split
  · rename_i last
    obtain ⟨front, rfl⟩ := List.getLast?_eq_some_iff.mp last
    rw [List.dropLast_concat]
    have continues : .return ∉ front := by
      intro member
      cases exitsLast .return (by simpa using member)
    rw [runInstructions_append continues]
    simp [runInstructions]
  · rfl

theorem mem_of_mem_withoutReturn {instructions : List Instruction} {i : Instruction}
    (member : i ∈ withoutReturn instructions) : i ∈ instructions := by
  unfold withoutReturn at member
  split at member
  · exact List.dropLast_subset _ member
  · exact member

namespace Program

variable (p : Program)

/-! ### Nested calls -/

/-- Methods that call each other, the first one being called by one of the instructions. -/
inductive Chain : List Instruction → List String → Prop
  | nil (instructions : List Instruction) : Chain instructions []
  | cons {instructions callee : List Instruction} {method : String} {names : List String} :
      .invoke method ∈ instructions → p.methods.get? method = some callee → Chain callee names →
      Chain instructions (method :: names)

/-- Calls are nested no deeper than a bound. -/
def NestedWithin (bound : Nat) (instructions : List Instruction) : Prop :=
  ∀ names, p.Chain instructions names → names.length ≤ bound

/-! ### Replacing calls -/

/-- One call is replaced by the instructions of the called method, without a return at their end. -/
inductive Inlines : List Instruction → List Instruction → Prop
  | intro (before after : List Instruction) {method : String} {callee : List Instruction} :
      p.methods.get? method = some callee →
      Inlines (before ++ .invoke method :: after) (before ++ withoutReturn callee ++ after)

/-- Calls are replaced until none is left. -/
structure Flattens (instructions flat : List Instruction) : Prop where
  inlines : Relation.ReflTransGen p.Inlines instructions flat
  noCall : ∀ method, .invoke method ∉ flat

/-- All calls replaced at once, and those in the called methods, down to a depth. -/
def inline : Nat → List Instruction → List Instruction
  | 0, instructions => instructions
  | depth + 1, instructions => instructions.flatMap fun
    | .invoke method =>
      match p.methods.get? method with
      | some callee => inline depth (withoutReturn callee)
      | none => [.invoke method]
    | i => [i]

/-- Methods call methods that exist, and leave their bodies at the end only. -/
structure Orderly : Prop where
  exitsLast : ∀ name body, p.methods.get? name = some body → ExitsLast body
  defined : ∀ name body, p.methods.get? name = some body → ∀ method, .invoke method ∈ body →
    ∃ callee, p.methods.get? method = some callee

variable {p} {bound : Nat} {instructions : List Instruction}

/-! ### Depth -/

theorem Chain.mono {other : List Instruction} (subset : instructions ⊆ other) {names : List String}
    (chain : p.Chain instructions names) : p.Chain other names := by
  cases chain with
  | nil => exact .nil other
  | cons member stored chain => exact .cons (subset member) stored chain

theorem NestedWithin.mono {other : List Instruction} (nested : p.NestedWithin bound other)
    (subset : instructions ⊆ other) : p.NestedWithin bound instructions :=
  fun names chain => nested names (chain.mono subset)

/-- Without room for calls, no method that exists is called. -/
theorem NestedWithin.not_mem {method : String} {callee : List Instruction} (nested : p.NestedWithin 0 instructions)
    (stored : p.methods.get? method = some callee) : .invoke method ∉ instructions := by
  intro member
  have short := nested [method] (.cons member stored (.nil callee))
  simp at short

/-- Calls in a called method are nested less deep. -/
theorem NestedWithin.callee {method : String} {callee : List Instruction}
    (nested : p.NestedWithin (bound + 1) instructions) (member : .invoke method ∈ instructions)
    (stored : p.methods.get? method = some callee) : p.NestedWithin bound (withoutReturn callee) := by
  intro names chain
  have longer := nested (method :: names)
    (.cons member stored (chain.mono fun _ => mem_of_mem_withoutReturn))
  simpa using longer

/-- Replacing a call nests no call deeper. -/
theorem NestedWithin.inlines {other : List Instruction} (nested : p.NestedWithin bound instructions)
    (inlines : p.Inlines instructions other) : p.NestedWithin bound other := by
  obtain ⟨before, after, stored⟩ := inlines
  rename_i method callee
  intro names chain
  cases chain with
  | nil => exact Nat.zero_le _
  | @cons _ inner name names member found chain =>
    rw [List.append_assoc, List.mem_append, List.mem_append] at member
    obtain member | member | member := member
    · exact nested _ (.cons (by simp [member]) found chain)
    · have deeper := nested (method :: name :: names)
        (.cons (by simp) stored (.cons (mem_of_mem_withoutReturn member) found chain))
      exact Nat.le_of_succ_le deeper
    · exact nested _ (.cons (by simp [member]) found chain)

/-! ### All calls at once -/

theorem inline_cons (depth : Nat) (i : Instruction) (later : List Instruction) :
    p.inline depth (i :: later) = p.inline depth [i] ++ p.inline depth later := by
  cases depth with
  | zero => rfl
  | succ depth => simp [inline]

theorem inline_append (depth : Nat) (first later : List Instruction) :
    p.inline depth (first ++ later) = p.inline depth first ++ p.inline depth later := by
  cases depth with
  | zero => rfl
  | succ depth => simp [inline]

theorem inline_invoke {method : String} {callee : List Instruction} (stored : p.methods.get? method = some callee)
    (depth : Nat) : p.inline (depth + 1) [.invoke method] = p.inline depth (withoutReturn callee) := by
  simp [inline, stored]

/-- Nothing is replaced in the place of an instruction that is no call of an existing method. -/
theorem inline_singleton {i : Instruction} (noCall : ∀ method callee, p.methods.get? method = some callee →
    i ≠ .invoke method) (depth : Nat) : p.inline depth [i] = [i] := by
  cases depth with
  | zero => rfl
  | succ depth =>
    cases i with
    | invoke method =>
      cases stored : p.methods.get? method with
      | none => simp [inline, stored]
      | some callee => exact absurd rfl (noCall method callee stored)
    | route | rest | restConfiguration | throw | «return» => rfl

theorem inline_of_noCall (noCall : ∀ method, .invoke method ∉ instructions) (depth : Nat) :
    p.inline depth instructions = instructions := by
  induction instructions with
  | nil => cases depth <;> rfl
  | cons i later ih =>
    rw [inline_cons, inline_singleton, ih, List.singleton_append]
    · exact fun method member => noCall method (List.mem_cons_of_mem _ member)
    · rintro method _ _ rfl
      exact noCall method List.mem_cons_self

/-- An instruction is a call of a method that exists, or nothing is ever replaced in its place. -/
theorem invokes_or_inline_eq (p : Program) (i : Instruction) :
    (∃ method callee, p.methods.get? method = some callee ∧ i = .invoke method) ∨
      (∀ method callee, p.methods.get? method = some callee → i ≠ .invoke method) ∧ ∀ depth, p.inline depth [i] = [i] := by
  by_cases invokes : ∃ method callee, p.methods.get? method = some callee ∧ i = .invoke method
  · exact .inl invokes
  · have noCall : ∀ method callee, p.methods.get? method = some callee → i ≠ .invoke method :=
      fun method callee stored same => invokes ⟨method, callee, stored, same⟩
    exact .inr ⟨noCall, inline_singleton noCall⟩

/-- Replacing calls deeper than they are nested replaces nothing more. -/
theorem inline_succ (nested : p.NestedWithin bound instructions) :
    p.inline (bound + 1) instructions = p.inline bound instructions := by
  induction bound generalizing instructions with
  | zero =>
    induction instructions with
    | nil => rfl
    | cons i later ih =>
      have later := ih (nested.mono (List.subset_cons_self i later))
      obtain ⟨method, callee, stored, rfl⟩ | ⟨_, same⟩ := invokes_or_inline_eq p i
      · exact absurd List.mem_cons_self (nested.not_mem stored)
      · rw [inline_cons, inline_cons 0, same, same, later]
  | succ bound deeper =>
    induction instructions with
    | nil => rfl
    | cons i later ih =>
      have later := ih (nested.mono (List.subset_cons_self i later))
      obtain ⟨method, callee, stored, rfl⟩ | ⟨_, same⟩ := invokes_or_inline_eq p i
      · rw [inline_cons, inline_cons (bound + 1), inline_invoke stored, inline_invoke stored,
          deeper (nested.callee List.mem_cons_self stored), later]
      · rw [inline_cons, inline_cons (bound + 1), same, same, later]

/-- Replacing a call first makes no difference. -/
theorem Inlines.inline_eq {other : List Instruction} (inlines : p.Inlines instructions other)
    (nested : p.NestedWithin bound instructions) : p.inline bound instructions = p.inline bound other := by
  obtain ⟨before, after, stored⟩ := inlines
  cases bound with
  | zero => exact absurd (by simp) (nested.not_mem stored)
  | succ bound =>
    have callee := inline_succ (nested.callee (by simp) stored)
    rw [List.append_assoc, inline_append, inline_append, inline_cons, inline_append, inline_invoke stored, callee]

/-- Calls are replaced among other instructions as they are by themselves. -/
theorem lift_inlines (front back : List Instruction) {first second : List Instruction}
    (inlines : Relation.ReflTransGen p.Inlines first second) :
    Relation.ReflTransGen p.Inlines (front ++ first ++ back) (front ++ second ++ back) := by
  refine inlines.lift (fun instructions => front ++ instructions ++ back) ?_
  rintro _ _ ⟨before, after, stored⟩
  simpa [Function.onFun] using Inlines.intro (front ++ before) (after ++ back) stored

/-- Replacing calls one by one leads to the instructions with all of them replaced at once. -/
theorem reflTransGen_inlines_inline (p : Program) (depth : Nat) (instructions : List Instruction) :
    Relation.ReflTransGen p.Inlines instructions (p.inline depth instructions) := by
  induction depth generalizing instructions with
  | zero => exact .refl
  | succ depth deeper =>
    induction instructions with
    | nil => exact .refl
    | cons i later ih =>
      have rest : Relation.ReflTransGen p.Inlines (p.inline (depth + 1) [i] ++ later)
          (p.inline (depth + 1) (i :: later)) := by
        rw [inline_cons (depth + 1) i later]
        simpa using lift_inlines (p.inline (depth + 1) [i]) [] ih
      refine .trans ?_ rest
      obtain ⟨method, callee, stored, rfl⟩ | ⟨_, same⟩ := invokes_or_inline_eq p i
      · rw [inline_invoke stored]
        have first : p.Inlines (.invoke method :: later) (withoutReturn callee ++ later) :=
          Inlines.intro [] later stored
        exact .head first (by simpa using lift_inlines [] later (deeper (withoutReturn callee)))
      · rw [same]
        exact .refl

/-- Where calls are nested no deeper than a bound, none is left when they are replaced that deep. -/
theorem noCall_inline (orderly : p.Orderly) (nested : p.NestedWithin bound instructions)
    (defined : ∀ method, .invoke method ∈ instructions → ∃ callee, p.methods.get? method = some callee) (name : String) :
    .invoke name ∉ p.inline bound instructions := by
  induction bound generalizing instructions with
  | zero =>
    intro member
    obtain ⟨_, stored⟩ := defined name member
    exact nested.not_mem stored member
  | succ bound deeper =>
    induction instructions with
    | nil => exact List.not_mem_nil
    | cons i later ih =>
      rw [inline_cons, List.mem_append, not_or]
      refine ⟨?_, ih (nested.mono (List.subset_cons_self i later))
        fun method member => defined method (List.mem_cons_of_mem i member)⟩
      obtain ⟨method, callee, stored, rfl⟩ | ⟨noCall, same⟩ := invokes_or_inline_eq p i
      · rw [inline_invoke stored]
        exact deeper (nested.callee List.mem_cons_self stored) fun method member =>
          orderly.defined _ _ stored method (mem_of_mem_withoutReturn member)
      · rw [same]
        intro member
        obtain rfl := List.mem_singleton.mp member
        obtain ⟨callee, stored⟩ := defined name List.mem_cons_self
        exact noCall name callee stored rfl

/-- Instructions that do not return still do not when calls are replaced. -/
theorem return_notMem_inline (orderly : p.Orderly) (continues : .return ∉ instructions) (depth : Nat) :
    .return ∉ p.inline depth instructions := by
  induction depth generalizing instructions with
  | zero => exact continues
  | succ depth deeper =>
    induction instructions with
    | nil => exact List.not_mem_nil
    | cons i later ih =>
      rw [inline_cons, List.mem_append, not_or]
      refine ⟨?_, ih fun member => continues (List.mem_cons_of_mem i member)⟩
      obtain ⟨method, callee, stored, rfl⟩ | ⟨_, same⟩ := invokes_or_inline_eq p i
      · rw [inline_invoke stored]
        exact deeper (return_notMem_withoutReturn (orderly.exitsLast _ _ stored))
      · rw [same]
        intro member
        exact continues (List.mem_singleton.mp member ▸ List.mem_cons_self)

/-! ### Runs -/

/-- Calls that are nested no deeper than there is room for do what the instructions in their place do. -/
theorem run_inline (orderly : p.Orderly) (reach : Reach) (call : String → Run Unit)
    (nested : p.NestedWithin bound instructions)
    (defined : ∀ method, .invoke method ∈ instructions → ∃ callee, p.methods.get? method = some callee) :
    runInstructions reach (p.call reach bound) instructions = runInstructions reach call (p.inline bound instructions) := by
  induction bound generalizing instructions with
  | zero =>
    exact runInstructions_of_noCall (noCall_inline orderly nested defined) _ _
  | succ bound deeper =>
    induction instructions with
    | nil => rfl
    | cons i later ih =>
      have rest := ih (nested.mono (List.subset_cons_self i later))
        fun method member => defined method (List.mem_cons_of_mem i member)
      obtain ⟨method, callee, stored, rfl⟩ | ⟨noCall, same⟩ := invokes_or_inline_eq p i
      · have exitsLast := orderly.exitsLast _ _ stored
        have body := deeper (nested.callee List.mem_cons_self stored) fun method member =>
          orderly.defined _ _ stored method (mem_of_mem_withoutReturn member)
        have continues := return_notMem_inline orderly (return_notMem_withoutReturn exitsLast) bound
        rw [inline_cons, inline_invoke stored, runInstructions_append continues, ← body, ← rest, runInstructions,
          Program.call, stored]
        simp only [runInstructions_withoutReturn exitsLast]
      · rw [inline_cons, same, List.singleton_append]
        by_cases returns : i = .return
        · subst returns
          rfl
        · have alone (method : String) : .invoke method ∉ [i] := by
            intro member
            obtain rfl := List.mem_singleton.mp member
            obtain ⟨callee, stored⟩ := defined method List.mem_cons_self
            exact noCall method callee stored rfl
          rw [runInstructions_cons returns, runInstructions_cons returns (p.inline (bound + 1) later), rest,
            runInstructions_of_noCall alone _ call]

/-- Where calls are nested no deeper than a bound, replacing them leads to one list of instructions without calls. -/
theorem flattens_iff (orderly : p.Orderly) (nested : p.NestedWithin bound instructions)
    (defined : ∀ method, .invoke method ∈ instructions → ∃ callee, p.methods.get? method = some callee)
    {flat : List Instruction} : p.Flattens instructions flat ↔ flat = p.inline bound instructions := by
  constructor
  · rintro ⟨inlines, noCall⟩
    have kept : p.inline bound instructions = p.inline bound flat ∧ p.NestedWithin bound flat := by
      clear noCall
      induction inlines with
      | refl => exact ⟨rfl, nested⟩
      | tail _ last ih => exact ⟨ih.1.trans (last.inline_eq ih.2), ih.2.inlines last⟩
    rw [kept.1, inline_of_noCall noCall]
  · rintro rfl
    exact ⟨reflTransGen_inlines_inline p bound instructions, noCall_inline orderly nested defined⟩

end Program

end RouteDepot.RouteClass
