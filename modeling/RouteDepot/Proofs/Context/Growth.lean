import RouteDepot.Proofs.Context.Agreement

/-! # How a context grows

A batch is added as a whole behind what is held, or the context stays as it was. What is held agrees with itself at
every point of a history of batches, and what was held once stays in its place, so the configuration found for a
component never changes, and a batch that was accepted once is accepted ever after.
-/

namespace RouteDepot.Context

open RestConfiguration

variable {context next : Context} {batch : List RestConfiguration}

/-- The context with a batch behind what it holds. -/
def extend (context : Context) (batch : List RestConfiguration) : Context :=
  { context with held := context.held ++ batch }

@[simp] theorem properties_extend (context : Context) (batch : List RestConfiguration) :
    (context.extend batch).properties = context.properties := rfl

@[simp] theorem held_extend (context : Context) (batch : List RestConfiguration) :
    (context.extend batch).held = context.held ++ batch := rfl

@[simp] theorem extend_nil (context : Context) : context.extend [] = context := by
  simp [extend]

theorem extend_append (context : Context) (first second : List RestConfiguration) :
    context.extend (first ++ second) = (context.extend first).extend second := by
  simp [extend]

/-! ### One batch -/

theorem add_of_accepts (accepts : Accepts context.held batch) : context.add batch = .ok (context.extend batch) := by
  rw [add, firstConflict_eq_none_iff.mpr accepts]
  rfl

/-- A batch that is not accepted is refused for the component of its first entry that clashes. -/
theorem add_of_not_accepts (refused : ¬ Accepts context.held batch) :
    ∃ before c after, batch = before ++ c :: after ∧ Accepts context.held before ∧
      Clashes (context.held ++ before) c ∧ context.add batch = .error (.conflictingRestConfiguration c.key) := by
  rw [← firstConflict_eq_none_iff] at refused
  obtain ⟨component, found⟩ := Option.ne_none_iff_exists'.mp refused
  obtain ⟨before, c, after, split, accepts, clash, rfl⟩ := firstConflict_eq_some_iff.mp found
  exact ⟨before, c, after, split, accepts, clash, by rw [add, found]⟩

theorem append_of_accepts (accepts : Accepts context.held batch) :
    context.append batch = (context.extend batch, .ok batch.length) := by
  rw [append]
  split
  · next empty => simp [List.isEmpty_iff.mp empty]
  · rw [add_of_accepts accepts]

theorem append_of_not_accepts (refused : ¬ Accepts context.held batch) :
    ∃ before c after, batch = before ++ c :: after ∧ Accepts context.held before ∧
      Clashes (context.held ++ before) c ∧
      context.append batch = (context, .error (.conflictingRestConfiguration c.key)) := by
  obtain ⟨before, c, after, split, accepts, clash, failed⟩ := add_of_not_accepts refused
  refine ⟨before, c, after, split, accepts, clash, ?_⟩
  rw [append, failed, if_neg (by simp [split])]

theorem exists_append_eq_error_iff :
    (∃ fault, (context.append batch).2 = .error fault) ↔ ¬ Accepts context.held batch := by
  constructor
  · rintro ⟨fault, failed⟩ accepts
    rw [append_of_accepts accepts] at failed
    cases failed
  · intro refused
    obtain ⟨_, c, _, _, _, _, failed⟩ := append_of_not_accepts refused
    exact ⟨.conflictingRestConfiguration c.key, by rw [failed]⟩

/-- A batch that is added goes behind what is held, and its length is the number yielded. -/
theorem accepts_of_append_eq_ok {count : Nat} (success : (context.append batch).2 = .ok count) :
    Accepts context.held batch ∧ (context.append batch).1 = context.extend batch ∧ count = batch.length := by
  have accepts : Accepts context.held batch := by
    by_contra refused
    obtain ⟨fault, failed⟩ := exists_append_eq_error_iff.mpr refused
    rw [success] at failed
    cases failed
  rw [append_of_accepts accepts] at success ⊢
  exact ⟨accepts, rfl, (Except.ok.inj success).symm⟩

/-- A batch that is refused changes nothing, and the first of its entries that clashes is to blame. -/
theorem clash_of_append_eq_error {fault : ContextError} (failed : (context.append batch).2 = .error fault) :
    (context.append batch).1 = context ∧ ∃ before c after, batch = before ++ c :: after ∧
      Clashes (context.held ++ before) c ∧
      (∀ sooner d between, before = sooner ++ d :: between → ¬ Clashes (context.held ++ sooner) d) ∧
      fault = .conflictingRestConfiguration c.key := by
  have refused : ¬ Accepts context.held batch := exists_append_eq_error_iff.mp ⟨fault, failed⟩
  obtain ⟨before, c, after, split, accepts, clash, result⟩ := append_of_not_accepts refused
  rw [result] at failed ⊢
  refine ⟨rfl, before, c, after, split, clash, ?_, (Except.error.inj failed).symm⟩
  intro sooner d between split' clash'
  exact not_accepts_iff.mpr ⟨sooner, d, between, split', clash'⟩ accepts

/-! ### Histories -/

/-- The context behind a history of batches, each of them added or refused. -/
def appendAll (context : Context) (batches : List (List RestConfiguration)) : Context :=
  batches.foldl (fun context batch => (context.append batch).1) context

/-- What is held agrees with itself. -/
def Consistent (context : Context) : Prop := context.held.Pairwise Agrees

theorem Consistent.append (consistent : context.Consistent) (batch : List RestConfiguration) :
    (context.append batch).1.Consistent := by
  by_cases accepts : Accepts context.held batch
  · rw [append_of_accepts accepts]
    refine List.pairwise_append.mpr ⟨consistent, accepts.2, ?_⟩
    intro other held c member
    exact accepts.1 c member other held
  · obtain ⟨_, _, _, _, _, _, failed⟩ := append_of_not_accepts accepts
    rwa [failed]

theorem held_prefix_append (context : Context) (batch : List RestConfiguration) :
    context.held <+: (context.append batch).1.held := by
  by_cases accepts : Accepts context.held batch
  · rw [append_of_accepts accepts]
    exact List.prefix_append ..
  · obtain ⟨_, _, _, _, _, _, failed⟩ := append_of_not_accepts accepts
    simp only [failed, List.prefix_rfl]

theorem Consistent.appendAll (consistent : context.Consistent) (batches : List (List RestConfiguration)) :
    (context.appendAll batches).Consistent := by
  induction batches generalizing context with
  | nil => exact consistent
  | cons batch later ih => exact ih (consistent.append batch)

theorem held_prefix_appendAll (context : Context) (batches : List (List RestConfiguration)) :
    context.held <+: (context.appendAll batches).held := by
  induction batches generalizing context with
  | nil => exact List.prefix_rfl
  | cons batch later ih => exact (held_prefix_append context batch).trans (ih _)

/-- The configuration found for a component stays the same while a context grows. -/
theorem configuration?_appendAll {component : String} {c : RestConfiguration}
    (found : context.configuration? component = some c) (batches : List (List RestConfiguration)) :
    (context.appendAll batches).configuration? component = some c :=
  (held_prefix_appendAll context batches).find?_eq_some found

/-- What is held already is accepted again. -/
theorem Consistent.accepts (consistent : context.Consistent) (contained : batch ⊆ context.held) :
    Accepts context.held batch :=
  ⟨fun _ member _ held => agrees_of_pairwise consistent held (contained member),
    List.pairwise_of_forall_mem_list fun _ first _ second =>
      agrees_of_pairwise consistent (contained first) (contained second)⟩

/-- A batch that was added is added again behind any further history. -/
theorem Consistent.append_again (consistent : context.Consistent) {count : Nat}
    (success : (context.append batch).2 = .ok count) (later : List (List RestConfiguration)) :
    (((context.append batch).1.appendAll later).append batch).2 = .ok count := by
  obtain ⟨_, grown, rfl⟩ := accepts_of_append_eq_ok success
  have kept : (context.append batch).1.held <+: ((context.append batch).1.appendAll later).held :=
    held_prefix_appendAll _ later
  have contained : batch ⊆ (context.append batch).1.held := by simp [grown]
  have accepts : Accepts ((context.append batch).1.appendAll later).held batch :=
    ((consistent.append batch).appendAll later).accepts (List.Subset.trans contained kept.subset)
  rw [append_of_accepts accepts]

/-- After any history of batches that begins with nothing: what is held agrees with itself; one more batch goes behind
it and is counted, or is refused for its first entry that clashes and changes nothing; a configuration that is found
stays, and a batch that is accepted once is accepted again behind any further history. -/
theorem append_consistent (name : String) (properties : Properties) (earlier : List (List RestConfiguration))
    (batch : List RestConfiguration) :
    let context := appendAll { name, properties } earlier
    let next := (context.append batch).1
    let outcome := (context.append batch).2
    (∀ a ∈ context.held, ∀ b ∈ context.held, a.key = b.key → a = b) ∧
    context.held <+: next.held ∧
    (∀ count, outcome = .ok count → next.held = context.held ++ batch ∧ count = batch.length) ∧
    (∀ fault, outcome = .error fault → next = context) ∧
    ((∃ fault, outcome = .error fault) ↔
      ∃ before c after, batch = before ++ c :: after ∧ Clashes (context.held ++ before) c) ∧
    (∀ fault, outcome = .error fault → ∃ before c after, batch = before ++ c :: after ∧
      Clashes (context.held ++ before) c ∧
      (∀ sooner d between, before = sooner ++ d :: between → ¬ Clashes (context.held ++ sooner) d) ∧
      fault = .conflictingRestConfiguration c.key) ∧
    (∀ component c later, context.configuration? component = some c →
      (context.appendAll later).configuration? component = some c) ∧
    ∀ count later, outcome = .ok count → ((next.appendAll later).append batch).2 = .ok count := by
  intro context next outcome
  have start : Consistent { name, properties } := List.Pairwise.nil
  have consistent : context.Consistent := start.appendAll earlier
  refine ⟨fun a first b second => agrees_of_pairwise consistent first second, held_prefix_append context batch,
    ?_, ?_, ?_, ?_, ?_, ?_⟩
  · intro count success
    obtain ⟨_, grown, length⟩ := accepts_of_append_eq_ok success
    exact ⟨congrArg held grown, length⟩
  · intro fault failed
    exact (clash_of_append_eq_error failed).1
  · exact exists_append_eq_error_iff.trans not_accepts_iff
  · intro fault failed
    exact (clash_of_append_eq_error failed).2
  · intro component c later found
    exact configuration?_appendAll found later
  · intro count later success
    exact consistent.append_again success later

end RouteDepot.Context
