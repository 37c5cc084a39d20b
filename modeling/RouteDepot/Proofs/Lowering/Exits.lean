import RouteDepot.Proofs.Safety.Arguments

/-! # Where bodies are left

A return or a throw is the last instruction of the body that it stands in, also when it is written in nested blocks:
lowering stops at the statement that ends a body, and nothing but blanks may follow there.
-/

namespace RouteDepot.RouteClass

/-- Whether an instruction leaves the body that it stands in. -/
def Instruction.isExit : Instruction → Bool
  | .return | .throw .. => true
  | .route .. | .rest .. | .restConfiguration .. | .invoke _ => false

/-- Only the last instruction leaves a body. -/
def ExitsLast (instructions : List Instruction) : Prop := ∀ i ∈ instructions.dropLast, i.isExit = false

/-- Instructions in front of others that exit last, when none of them is an exit. -/
theorem ExitsLast.append {first later : List Instruction} (continues : ∀ i ∈ first, i.isExit = false)
    (exits : ExitsLast later) : ExitsLast (first ++ later) := by
  intro i member
  rw [List.dropLast_append] at member
  split at member
  · exact continues i (List.dropLast_subset _ member)
  · obtain member | member := List.mem_append.mp member
    · exact continues i member
    · exact exits i member

/-- An expression that stands as a statement does not leave the body. -/
theorem isExit_of_instruction {scope : Scope} {e : Expression} {i : Instruction}
    (lowered : e.instruction scope = .done i) : i.isExit = false := by
  obtain ⟨first, later, _, lowered⟩ := Expression.instruction_eq_done lowered
  obtain ⟨_, ⟨_, _, _, rfl⟩ | ⟨_, ⟨_, lowered⟩ | ⟨_, lowered⟩ | ⟨_, lowered⟩⟩⟩ := lowerChain_eq_done lowered
  · rfl
  · obtain ⟨_, _, _, _, rfl⟩ := lowerRoute_eq_done_iff.mp lowered
    rfl
  · obtain ⟨_, _, _, _, rfl⟩ := lowerRest_eq_done_iff.mp lowered
    rfl
  · obtain ⟨_, _, _, _, rfl⟩ := lowerRestConfiguration_eq_done_iff.mp lowered
    rfl

/-- What lowering says about where a body is left: nowhere if the body goes on, and at its last instruction
otherwise. -/
structure LoweredBody.LeftLast (body : LoweredBody) : Prop where
  exitsLast : ExitsLast body.instructions
  continues : body.ends = false → ∀ i ∈ body.instructions, i.isExit = false

namespace LoweredBody.LeftLast

theorem of_ends {instructions : List Instruction} {locals : List (String × Option Operand)}
    {faults : List (Finding SemanticFault)} (exitsLast : ExitsLast instructions) :
    LeftLast ⟨instructions, true, locals, faults⟩ :=
  ⟨exitsLast, nofun⟩

theorem of_continues {instructions : List Instruction} {ends : Bool} {locals : List (String × Option Operand)}
    {faults : List (Finding SemanticFault)} (continues : ∀ i ∈ instructions, i.isExit = false) :
    LeftLast ⟨instructions, ends, locals, faults⟩ :=
  ⟨fun i member => continues i (List.dropLast_subset _ member), fun _ => continues⟩

end LoweredBody.LeftLast

mutual

theorem Statement.leftLast_lower (scope : Scope) (s : Statement) (clean : (s.lower scope).faults = []) :
    (s.lower scope).LeftLast := by
  cases s with
  | empty | declare type name value =>
    rw [Statement.lower]
    exact .of_continues nofun
  | block body span =>
    rw [Statement.lower] at clean ⊢
    obtain ⟨exitsLast, continues⟩ := leftLast_lowerStatements scope body clean
    exact ⟨exitsLast, continues⟩
  | «return» span =>
    rw [Statement.lower]
    exact .of_ends nofun
  | throw value span =>
    rw [Statement.lower] at clean ⊢
    obtain ⟨i, _, same⟩ := LoweredBody.ofInstruction_eq_of_clean (explained_lowerThrow _ _ _) clean
    rw [same]
    exact .of_ends nofun
  | expression e =>
    rw [Statement.lower] at clean ⊢
    obtain ⟨i, lowered, same⟩ := LoweredBody.ofInstruction_eq_of_clean (e.explained_instruction _) clean
    rw [same]
    exact .of_continues (List.forall_mem_singleton.mpr (isExit_of_instruction lowered))

theorem leftLast_lowerStatements (scope : Scope) (body : List Statement)
    (clean : (lowerStatements scope body).faults = []) : (lowerStatements scope body).LeftLast := by
  cases body with
  | nil =>
    rw [lowerStatements]
    exact .of_continues nofun
  | cons statement later =>
    cases ends : (statement.lower scope).ends with
    | true =>
      have same := lowerStatements_cons_of_ends ends clean
      rw [same] at clean ⊢
      exact statement.leftLast_lower scope clean
    | false =>
      rw [lowerStatements_cons_of_continues ends] at clean ⊢
      obtain ⟨firstClean, laterClean⟩ := List.append_eq_nil_iff.mp clean
      have first := (statement.leftLast_lower scope firstClean).continues ends
      obtain ⟨exitsLast, continues⟩ := leftLast_lowerStatements _ later laterClean
      exact ⟨.append first exitsLast, fun goesOn => List.forall_mem_append.mpr ⟨first, continues goesOn⟩⟩

end

/-- Every body of an accepted class is left at its last instruction, if at all. -/
theorem ClassDeclaration.Accepted.exitsLast {c : ClassDeclaration} {fields : List (String × Value)}
    {bodies : List (Option (String × List Instruction))} {p : Program} (accepted : c.Accepted fields bodies p)
    {instructions : List Instruction} (body : p.HasBody instructions) : ExitsLast instructions := by
  obtain rfl | ⟨place, name, block, lowered⟩ := accepted.body_eq body
  · exact nofun
  · obtain ⟨value, clean⟩ := Lowered.eq_done_iff.mp lowered
    obtain rfl := Option.some.inj value
    exact (leftLast_lowerStatements _ block.body clean).exitsLast

end RouteDepot.RouteClass
