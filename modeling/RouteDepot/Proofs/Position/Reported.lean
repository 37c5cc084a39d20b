import RouteDepot.Proofs.Layout.Classes
import RouteDepot.Proofs.Layout.Units
import RouteDepot.Proofs.Position.Place
import RouteDepot.RouteClass.Compile

/-! # Compile errors are well positioned

Every fault is reported at bytes between characters of the source, whichever stage finds it. For the parser and for
lowering this is the alignment of the source with itself under which offsets have to be boundaries.
-/

namespace RouteDepot.RouteClass

open Text (IsBoundary)

variable {source : String}

/-! ### Places of faults -/

/-- The alignment of a text with itself at its boundaries. -/
def Alignment.boundaries (whole : List Char) : Alignment where
  starts n _ := IsBoundary whole n
  stops n _ := IsBoundary whole n

theorem Alignment.boundaries_spans_iff {s t : Span} :
    (boundaries source.toList).Spans s t ↔ s.Within source.toList 0 source.utf8ByteSize := by
  constructor
  · intro spans
    exact ⟨Nat.zero_le _, spans.ordered, Text.byteLength_toList source ▸ spans.stops.le, spans.starts, spans.stops⟩
  · intro within
    exact ⟨within.start_boundary, within.stop_boundary, within.ordered⟩

/-- Faults that are alike to themselves at boundaries are reported at bytes of the source. -/
theorem within_of_alike {Cause : Type} {faults : List (Finding Cause)}
    (alike : List.Forall₂ (Finding.Alike (Alignment.boundaries source.toList).Spans) faults faults) :
    ∀ f ∈ faults, f.span.Within source.toList 0 source.utf8ByteSize :=
  fun f member => Alignment.boundaries_spans_iff.mp (List.forall₂_same.mp alike f member).2

theorem Lexed.ofSource_faults_within (source : String) :
    ∀ f ∈ (ofSource source).faults, f.span.Within source.toList 0 source.utf8ByteSize := by
  obtain ⟨tiles, tiled⟩ := ofChars_tiled (Text.restAt_zero source.toList)
  exact ofSource_stop source ▸ tiled.within

/-- What the parser makes of a source, at boundaries. -/
theorem ofTokens_boundaries (source : String) :
    Except.Rel (List.Forall₂ (Finding.Alike (Alignment.boundaries source.toList).Spans))
      (SourceUnit.Aligned (Alignment.boundaries source.toList).Spans)
      (SourceUnit.ofTokens (Lexed.ofSource source).tokens (Lexed.ofSource source).stopSpan)
      (SourceUnit.ofTokens (Lexed.ofSource source).tokens (Lexed.ofSource source).stopSpan) := by
  have within := (Lexed.ofSource_places source).1
  refine SourceUnit.ofTokens_related (Lexed.facing_of_kinds_eq rfl (Text.isBoundary_zero _) ?_)
  exact List.forall₂_same.mpr fun s member => Alignment.boundaries_spans_iff.mpr (within s member)

/-! ### Faults that are there -/

theorem SourceUnit.faults_ne_nil_of_ofTokens_eq_error {tokens : List Token} {stop : Span}
    {faults : List (Finding SyntaxFault)} (failed : ofTokens tokens stop = .error faults) : faults ≠ [] := by
  unfold ofTokens at failed
  split at failed
  · split at failed
    · cases failed
    · rename_i present
      obtain rfl := Except.error.inj failed
      exact fun nothing => present (List.isEmpty_iff.mpr nothing)
  · obtain rfl := Except.error.inj failed
    exact List.concat_ne_nil _ _

theorem SourceUnit.faults_ne_nil_of_lower_eq_error {u : SourceUnit} {unitName : String}
    {faults : List (Finding SemanticFault)} (failed : u.lower unitName = .error faults) : faults ≠ [] := by
  unfold lower at failed
  generalize splitName unitName = names at failed
  obtain ⟨package, simple⟩ := names
  dsimp only at failed
  split at failed
  · split at failed
    · cases failed
    · rename_i present
      obtain rfl := Except.error.inj failed
      exact fun nothing => present (List.isEmpty_iff.mpr nothing)
  · obtain rfl := Except.error.inj failed
    exact List.concat_ne_nil _ _

/-! ### Compiling -/

/-- Why a compilation fails: because of the order of the tokens, because of their spelling alone, or because of their
meaning. -/
theorem compile_eq_error {unitName : String} {e : CompileError} (failed : compile unitName source = .error e) :
    (∃ faults, SourceUnit.ofTokens (Lexed.ofSource source).tokens (Lexed.ofSource source).stopSpan = .error faults ∧
        e.diagnostics = sortDiagnostics
          ((Lexed.ofSource source).diagnostics source ++ syntaxDiagnostics source faults)) ∨
      (e.diagnostics ≠ [] ∧ e.diagnostics = (Lexed.ofSource source).diagnostics source) ∨
      ∃ unit faults, SourceUnit.ofTokens (Lexed.ofSource source).tokens (Lexed.ofSource source).stopSpan = .ok unit ∧
        unit.lower unitName = .error faults ∧ e.diagnostics = semanticDiagnostics source faults := by
  unfold compile at failed
  dsimp only at failed
  split at failed
  · rename_i faults parsed
    obtain rfl := Except.error.inj failed
    exact .inl ⟨faults, parsed, rfl⟩
  · rename_i unit parsed
    split at failed
    · split at failed
      · cases failed
      · rename_i faults lowered
        obtain rfl := Except.error.inj failed
        exact .inr (.inr ⟨unit, faults, parsed, lowered, rfl⟩)
    · rename_i present
      obtain rfl := Except.error.inj failed
      exact .inr (.inl ⟨fun nothing => present (List.isEmpty_iff.mpr nothing), rfl⟩)

theorem sortDiagnostics_eq_nil_iff {diagnostics : List Diagnostic} :
    sortDiagnostics diagnostics = [] ↔ diagnostics = [] := by
  rw [← List.length_eq_zero_iff, sortDiagnostics, List.length_mergeSort, List.length_eq_zero_iff]

/-- A failed compilation has diagnostics. -/
theorem diagnostics_ne_nil_of_compile_eq_error {unitName : String} {e : CompileError}
    (failed : compile unitName source = .error e) : e.diagnostics ≠ [] := by
  intro nothing
  obtain ⟨faults, parsed, shown⟩ | ⟨present, _⟩ | ⟨unit, faults, _, lowered, shown⟩ := compile_eq_error failed
  · have none := sortDiagnostics_eq_nil_iff.mp (shown.symm.trans nothing)
    exact SourceUnit.faults_ne_nil_of_ofTokens_eq_error parsed
      (List.map_eq_nil_iff.mp (List.append_eq_nil_iff.mp none).2)
  · exact present nothing
  · exact SourceUnit.faults_ne_nil_of_lower_eq_error lowered (List.map_eq_nil_iff.mp (shown.symm.trans nothing))

/-- Faults at bytes of the source are located in it. -/
theorem locatedIn_of_within {Cause : Type} (message : Cause → String) {faults : List (Finding Cause)}
    (within : ∀ f ∈ faults, f.span.Within source.toList 0 source.utf8ByteSize) :
    ∀ d ∈ faults.map fun f => Diagnostic.locate source f.span (message f.cause), d.LocatedIn source := by
  intro d member
  obtain ⟨f, present, rfl⟩ := List.mem_map.mp member
  exact Diagnostic.locatedIn_locate (within f present) _

/-- The diagnostics of a failed compilation are located in the source. -/
theorem locatedIn_of_compile_eq_error {unitName : String} {e : CompileError}
    (failed : compile unitName source = .error e) : ∀ d ∈ e.diagnostics, d.LocatedIn source := by
  have lexical : ∀ d ∈ (Lexed.ofSource source).diagnostics source, d.LocatedIn source :=
    locatedIn_of_within _ (Lexed.ofSource_faults_within source)
  have boundaries := ofTokens_boundaries source
  obtain ⟨faults, parsed, shown⟩ | ⟨_, shown⟩ | ⟨unit, faults, parsed, lowered, shown⟩ := compile_eq_error failed
  · rw [parsed] at boundaries
    cases boundaries with
    | error alike =>
      intro d member
      rw [shown, sortDiagnostics, List.mem_mergeSort, List.mem_append] at member
      exact member.elim (lexical d) (locatedIn_of_within SyntaxFault.message (within_of_alike alike) d)
  · exact shown ▸ lexical
  · rw [parsed] at boundaries
    cases boundaries with
    | ok aligned =>
      have again := aligned.lower ⟨Text.isBoundary_zero _, Text.isBoundary_zero _, Nat.le_refl _⟩ unitName
      rw [lowered] at again
      cases again with
      | error alike => exact shown ▸ locatedIn_of_within SemanticFault.message (within_of_alike alike)

/-- Diagnostics that say where in a source they belong. -/
structure WellPositioned (source : String) (diagnostics : List Diagnostic) : Prop where
  present : diagnostics ≠ []
  within : ∀ d ∈ diagnostics, d.span.Within source.toList 0 source.utf8ByteSize
  /-- The line and the column lead to where the bytes begin, and nowhere else. -/
  leads : ∀ d ∈ diagnostics, ∀ offset, Text.LeadsTo source.toList d.line d.column offset ↔ offset = d.span.start
  /-- Lines and columns are in the order of the offsets. -/
  ordered : ∀ d ∈ diagnostics, ∀ d' ∈ diagnostics, d.ReadsBefore d' ↔ d.span.start < d'.span.start
  /-- What is drawn marks whole characters, among them those of the span. -/
  marked : ∀ d ∈ diagnostics, Excerpt.Marks source.toList d.span (Excerpt.widen source.toList d.span)

/-- Every compile error is well positioned. -/
theorem compile_positioned {unitName source : String} {e : CompileError}
    (failed : compile unitName source = .error e) : WellPositioned source e.diagnostics where
  present := diagnostics_ne_nil_of_compile_eq_error failed
  within d member := (locatedIn_of_compile_eq_error failed d member).1
  leads d member offset := by
    have leads := (locatedIn_of_compile_eq_error failed d member).leadsTo
    constructor
    · exact fun also => also.unique leads
    · rintro rfl
      exact leads
  ordered d member d' member' :=
    have located := locatedIn_of_compile_eq_error failed
    (located d member).readsBefore_iff (located d' member')
  marked d member := by
    have within := (locatedIn_of_compile_eq_error failed d member).1
    exact Excerpt.marks_widen (Text.byteLength_toList source ▸ within)

theorem compile_positioned_multibyte :
    ∃ e, compile "A" "class Ü \x7b\n  int ç = ö;\n\x7d" = .error e ∧
      e.diagnostics.map (fun d => (d.span, d.line, d.column)) = [(⟨22, 24⟩, 2, 11), (⟨0, 0⟩, 1, 1)] ∧
      WellPositioned "class Ü \x7b\n  int ç = ö;\n\x7d" e.diagnostics := by
  have shown : (match compile "A" "class Ü \x7b\n  int ç = ö;\n\x7d" with
      | .error e => e.diagnostics.map fun d => (d.span, d.line, d.column)
      | .ok _ => []) = [(⟨22, 24⟩, 2, 11), (⟨0, 0⟩, 1, 1)] := by decide +kernel
  cases compiled : compile "A" "class Ü \x7b\n  int ç = ö;\n\x7d" with
  | ok program =>
    rw [compiled] at shown
    cases shown
  | error e =>
    rw [compiled] at shown
    exact ⟨e, rfl, shown, compile_positioned compiled⟩

end RouteDepot.RouteClass
