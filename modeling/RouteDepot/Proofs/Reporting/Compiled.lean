import RouteDepot.Proofs.Position.Reported
import RouteDepot.Proofs.Reporting.Discovery

/-! # Faults of spelling and of order are reported

A source with faults of spelling or of order does not compile, and what is reported are these faults: each of them
once, and those that begin together in the order of their discovery. They are sorted by where they begin whenever the
order of the tokens is at fault as well. The faults of spelling alone are reported as they are found, which is not
their order when an escape is at fault in a string literal that is not closed.
-/

namespace RouteDepot.RouteClass

/-- Sorting keeps the order of the diagnostics that begin together. -/
theorem filter_sortDiagnostics (diagnostics : List Diagnostic) (start : Nat) :
    (sortDiagnostics diagnostics).filter (·.span.start = start) = diagnostics.filter (·.span.start = start) := by
  have permuted :=
    (List.mergeSort_perm diagnostics fun a b => a.span.start ≤ b.span.start).filter (·.span.start = start)
  have together : (diagnostics.filter (·.span.start = start)).Pairwise
      fun a b => decide (a.span.start ≤ b.span.start) := by
    refine List.pairwise_of_forall_mem_list fun a member b memberLater => ?_
    have first := (List.mem_filter.mp member).2
    have later := (List.mem_filter.mp memberLater).2
    simp only [decide_eq_true_eq] at first later ⊢
    omega
  have kept := (List.sublist_mergeSort (by simp; omega) (by simp; omega) together List.filter_sublist).filter
    (·.span.start = start)
  simp only [List.filter_filter, Bool.and_self] at kept
  exact (kept.eq_of_length permuted.length_eq.symm).symm

theorem sortDiagnostics_sorted (diagnostics : List Diagnostic) :
    (sortDiagnostics diagnostics).Pairwise (·.span.start ≤ ·.span.start) := by
  have sorted : (sortDiagnostics diagnostics).Pairwise fun a b => decide (a.span.start ≤ b.span.start) :=
    List.pairwise_mergeSort (by simp; omega) (by simp; omega) diagnostics
  simpa using sorted

/-- The order of the tokens of a source is at fault. -/
def Misordered (source : String) : Prop :=
  ∃ faults, SourceUnit.ofTokens (Lexed.ofSource source).tokens (Lexed.ofSource source).stopSpan = .error faults

/-- The faults of the order of the tokens. -/
def syntaxFaults (source : String) : List (Finding SyntaxFault) :=
  match SourceUnit.ofTokens (Lexed.ofSource source).tokens (Lexed.ofSource source).stopSpan with
  | .error faults => faults
  | .ok _ => []

/-- The faults of spelling and then those of order, as diagnostics. -/
def syntaxErrors (source : String) : List Diagnostic :=
  (Lexed.ofSource source).diagnostics source ++ syntaxDiagnostics source (syntaxFaults source)

/-- How the faults of spelling and of order are reported. -/
structure ReportsSyntaxErrors (source : String) (reported : List Diagnostic) : Prop where
  /-- Each of them once, and nothing else. -/
  complete : reported.Perm (syntaxErrors source)
  /-- Those that begin together in the order of their discovery. -/
  stable : ∀ start, reported.filter (·.span.start = start) = (syntaxErrors source).filter (·.span.start = start)
  /-- They are sorted, unless the only faults are those of spelling and among these are a string literal that is not
  closed and an escape in it. -/
  sorted_iff : reported.Pairwise (·.span.start ≤ ·.span.start) ↔
    Misordered source ∨
      ∀ f ∈ (Lexed.ofSource source).faults, ∀ g ∈ (Lexed.ofSource source).faults, ¬ InUnclosedString f g

/-- A source with faults of spelling or of order does not compile, and these faults are reported. -/
theorem syntaxErrors_reported {qualifiedName source : String} (faulty : syntaxErrors source ≠ []) :
    ∃ e, compile qualifiedName source = .error e ∧ e.unit = qualifiedName ∧
      ReportsSyntaxErrors source e.diagnostics := by
  unfold compile
  dsimp only
  cases parsed : SourceUnit.ofTokens (Lexed.ofSource source).tokens (Lexed.ofSource source).stopSpan with
  | error faults =>
    have errors : syntaxErrors source =
        (Lexed.ofSource source).diagnostics source ++ syntaxDiagnostics source faults := by
      rw [syntaxErrors, syntaxFaults, parsed]
    refine ⟨_, rfl, rfl, ?_⟩
    rw [← errors]
    exact {
      complete := List.mergeSort_perm _ _
      stable := filter_sortDiagnostics _
      sorted_iff := iff_of_true (sortDiagnostics_sorted _) (.inl ⟨faults, parsed⟩) }
  | ok u =>
    have errors : syntaxErrors source = (Lexed.ofSource source).diagnostics source := by
      rw [syntaxErrors, syntaxFaults, parsed]
      exact List.append_nil _
    have spelled : ((Lexed.ofSource source).diagnostics source).isEmpty = false :=
      List.isEmpty_eq_false_iff.mpr (errors ▸ faulty)
    have ordered : ¬ Misordered source := by
      rintro ⟨faults, failed⟩
      rw [parsed] at failed
      cases failed
    simp only [spelled, Bool.false_eq_true, if_false]
    refine ⟨_, rfl, rfl, ?_⟩
    rw [← errors]
    exact {
      complete := .refl _
      stable := fun _ => rfl
      sorted_iff := by
        rw [errors, Lexed.diagnostics, List.pairwise_map, or_iff_right ordered]
        exact Lexed.ofSource_sorted_iff source }

/-- A class with a string literal that is not closed and has a wrong escape in it. -/
def unclosedSource : String := "class A \x7b String s = \"a\\q\n; \x7d"

theorem syntaxErrors_reported_unclosed :
    syntaxErrors unclosedSource ≠ [] ∧ ∃ e, compile "A" unclosedSource = .error e ∧ e.unit = "A" ∧
      ReportsSyntaxErrors unclosedSource e.diagnostics := by
  have faulty : syntaxErrors unclosedSource ≠ [] := by decide +kernel
  exact ⟨faulty, syntaxErrors_reported faulty⟩

/-- Faults of spelling may be reported out of order. -/
theorem syntaxErrors_not_sorted :
    ¬ ∀ qualifiedName source, syntaxErrors source ≠ [] → ∃ e, compile qualifiedName source = .error e ∧
      e.diagnostics.Pairwise (·.span.start ≤ ·.span.start) := by
  intro sorted
  obtain ⟨e, failed, sorted⟩ := sorted "A" unclosedSource (by decide +kernel)
  have shown : (match compile "A" unclosedSource with
      | .error e => e.diagnostics.map (·.span.start)
      | .ok _ => []) = [23, 21] := by decide +kernel
  rw [failed] at shown
  change e.diagnostics.map (·.span.start) = [23, 21] at shown
  have sorted : (e.diagnostics.map (·.span.start)).Pairwise (· ≤ ·) := List.pairwise_map.mpr sorted
  rw [shown] at sorted
  exact absurd sorted (by decide)

end RouteDepot.RouteClass
