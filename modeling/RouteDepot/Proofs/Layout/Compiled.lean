import Mathlib.Data.List.Pairwise
import RouteDepot.Proofs.Layout.Classes
import RouteDepot.Proofs.Layout.Units
import RouteDepot.RouteClass.Compile

/-! # Layout does not matter

Two sources with the same tokens compile to the same program, or fail with the same messages in the same order. The
tokens of both sources stand in the same order, so that sorting faults by their places does not tell them apart either.
-/

namespace List

/-- Two lists are sorted alike when related items are in the same order in both. -/
theorem Forall₂.mergeSort {α β : Type} {R : α → β → Prop} {items : List α} {others : List β} {le : α → α → Bool}
    {le' : β → β → Bool} (related : Forall₂ R items others)
    (order : ∀ a b a' b', R a b → R a' b' → le a a' = le' b b') :
    Forall₂ R (items.mergeSort le) (others.mergeSort le') := by
  obtain ⟨length, pairs⟩ := forall₂_iff_zip.mp related
  have both (p : α × β) (member : p ∈ items.zip others) : R p.1 p.2 := pairs member
  have first : items.mergeSort le = ((items.zip others).mergeSort fun p q => le p.1 q.1).map Prod.fst := by
    rw [map_mergeSort (s := le) fun _ _ _ _ => rfl, map_fst_zip length.le]
  have second : others.mergeSort le' = ((items.zip others).mergeSort fun p q => le p.1 q.1).map Prod.snd := by
    rw [map_mergeSort (s := le') fun p left q right => order _ _ _ _ (both p left) (both q right),
      map_snd_zip length.ge]
  rw [first, second, forall₂_map_left_iff, forall₂_map_right_iff, forall₂_same]
  exact fun p member => both p (mem_mergeSort.mp member)

/-- Pairs of items from two lists stand in the order of both lists. -/
theorem Pairwise.zip {α β : Type} {R : α → α → Prop} {S : β → β → Prop} {items : List α} {others : List β}
    (left : items.Pairwise R) (right : others.Pairwise S) :
    (items.zip others).Pairwise fun p q => R p.1 q.1 ∧ S p.2 q.2 := by
  induction left generalizing others with
  | nil => exact .nil
  | cons before _ ih =>
    cases right with
    | nil => exact .nil
    | cons before' right =>
      refine .cons (fun q member => ?_) (ih right)
      obtain ⟨inFirst, inSecond⟩ := of_mem_zip member
      exact ⟨before _ inFirst, before' _ inSecond⟩

end List

namespace RouteDepot.RouteClass

/-! ### Places in order -/

/-- Two pairs of spans that begin in the same order, the first spans and the second spans. -/
def SameOrder (p q : Span × Span) : Prop := compare p.1.start q.1.start = compare p.2.start q.2.start

instance : Std.Symm SameOrder where
  symm p q same := by
    have swapped := congrArg Ordering.swap same
    rwa [Nat.compare_swap, Nat.compare_swap] at swapped

/-- Offsets belong together where the same piece begins in both of two lists of spans; where pieces end does not
matter. -/
def Alignment.ofPlaces (places places' : List Span) : Alignment where
  starts n n' := ∃ p ∈ places.zip places', p.1.start = n ∧ p.2.start = n'
  stops _ _ := True

namespace Alignment

variable {places places' : List Span}

theorem ofPlaces_spans (length : places.length = places'.length) (ordered : ∀ s ∈ places, s.start ≤ s.stop) :
    List.Forall₂ (ofPlaces places places').Spans places places' :=
  List.forall₂_iff_zip.mpr ⟨length, fun member =>
    ⟨⟨_, member, rfl, rfl⟩, trivial, ordered _ (List.of_mem_zip member).1⟩⟩

/-- Pieces that follow each other begin in the same order. -/
theorem ofPlaces_le_iff (follow : places.Pairwise fun s t => s.start < t.start)
    (follow' : places'.Pairwise fun s t => s.start < t.start) {n n' k k' : Nat}
    (first : (ofPlaces places places').starts n n') (second : (ofPlaces places places').starts k k') :
    n ≤ k ↔ n' ≤ k' := by
  obtain ⟨p, inFirst, rfl, rfl⟩ := first
  obtain ⟨q, inSecond, rfl, rfl⟩ := second
  have ordered : (places.zip places').Pairwise SameOrder := (follow.zip follow').imp fun {p q} both => by
    rw [SameOrder, Nat.compare_eq_lt.mpr both.1, Nat.compare_eq_lt.mpr both.2]
  have itself (p : Span × Span) : SameOrder p p :=
    (Nat.compare_eq_eq.mpr rfl).trans (Nat.compare_eq_eq.mpr rfl).symm
  have same : SameOrder p q := List.Pairwise.forall_of_forall (fun p _ => itself p) ordered inFirst inSecond
  rw [← Nat.compare_ne_gt, ← Nat.compare_ne_gt, same]

/-- Anything belongs together. -/
def anywhere : Alignment where
  starts _ _ := True
  stops _ _ := True

end Alignment

/-! ### Messages -/

variable {m : Alignment} {source source' : String}

/-- The same message at places that belong together. -/
def SameMessage (m : Alignment) (d d' : Diagnostic) : Prop :=
  d.message = d'.message ∧ m.starts d.span.start d'.span.start

theorem messages_eq {diagnostics diagnostics' : List Diagnostic}
    (related : List.Forall₂ (SameMessage m) diagnostics diagnostics') :
    diagnostics.map (·.message) = diagnostics'.map (·.message) := by
  rw [← List.forall₂_eq_eq_eq, List.forall₂_map_left_iff, List.forall₂_map_right_iff]
  exact related.imp fun _ _ => And.left

/-- Faults in places that belong together are shown with the same messages. -/
theorem diagnostics_related {Cause : Type} (message : Cause → String) {faults faults' : List (Finding Cause)}
    (related : List.Forall₂ (Finding.Alike m.Spans) faults faults') :
    List.Forall₂ (SameMessage m) (faults.map fun f => .locate source f.span (message f.cause))
      (faults'.map fun f => .locate source' f.span (message f.cause)) := by
  rw [List.forall₂_map_left_iff, List.forall₂_map_right_iff]
  exact related.imp fun f f' alike => ⟨congrArg message alike.1, alike.2.starts⟩

theorem sortDiagnostics_related {diagnostics diagnostics' : List Diagnostic}
    (order : ∀ n n' k k', m.starts n n' → m.starts k k' → (n ≤ k ↔ n' ≤ k'))
    (related : List.Forall₂ (SameMessage m) diagnostics diagnostics') :
    List.Forall₂ (SameMessage m) (sortDiagnostics diagnostics) (sortDiagnostics diagnostics') :=
  related.mergeSort fun _ _ _ _ first second => decide_eq_decide.mpr (order _ _ _ _ first.2 second.2)

/-! ### Compiling -/

theorem compile_eq_of_faults_eq_nil (unfaulted : (Lexed.ofSource source).faults = []) (unitName : String) :
    compile unitName source =
      match SourceUnit.ofTokens (Lexed.ofSource source).tokens (Lexed.ofSource source).stopSpan with
      | .error faults => .error ⟨unitName, sortDiagnostics (syntaxDiagnostics source faults)⟩
      | .ok unit =>
        match unit.lower unitName with
        | .ok program => .ok program
        | .error faults => .error ⟨unitName, semanticDiagnostics source faults⟩ := by
  have none : (Lexed.ofSource source).diagnostics source = [] := List.map_eq_nil_iff.mpr unfaulted
  unfold compile
  dsimp only
  rw [none]
  cases SourceUnit.ofTokens _ _ with
  | error faults => rfl
  | ok unit => cases unit.lower unitName <;> rfl

/-- Sources with the same tokens compile to the same program, or fail with the same messages in the same order. -/
theorem compile_of_same_tokens {source source' : String} (unfaulted : (Lexed.ofSource source).faults = [])
    (unfaulted' : (Lexed.ofSource source').faults = [])
    (kinds : (Lexed.ofSource source).tokens.map (·.kind) = (Lexed.ofSource source').tokens.map (·.kind))
    (unitName : String) :
    (∃ program, compile unitName source = .ok program ∧ compile unitName source' = .ok program) ∨
      ∃ e e', compile unitName source = .error e ∧ compile unitName source' = .error e' ∧
        e.diagnostics.map (·.message) = e'.diagnostics.map (·.message) := by
  obtain ⟨within, follow⟩ := Lexed.ofSource_places source
  obtain ⟨_, follow'⟩ := Lexed.ofSource_places source'
  have length : (Lexed.ofSource source).places.length = (Lexed.ofSource source').places.length := by
    rw [Lexed.length_places, Lexed.length_places, ← List.length_map, kinds, List.length_map]
  have ordered (s : Span) (member : s ∈ (Lexed.ofSource source).places) : s.start ≤ s.stop := (within s member).ordered
  -- Faults of order are sorted, so their places matter; faults of meaning are not.
  have syntaxes := SourceUnit.ofTokens_related
    (Lexed.facing_of_kinds_eq kinds trivial (Alignment.ofPlaces_spans length ordered))
  have units := SourceUnit.ofTokens_related (m := Alignment.anywhere) (Lexed.facing_of_kinds_eq kinds trivial
    (List.forall₂_iff_zip.mpr ⟨length, fun member => ⟨trivial, trivial, ordered _ (List.of_mem_zip member).1⟩⟩))
  rw [compile_eq_of_faults_eq_nil unfaulted, compile_eq_of_faults_eq_nil unfaulted']
  generalize SourceUnit.ofTokens (Lexed.ofSource source).tokens _ = parsed,
    SourceUnit.ofTokens (Lexed.ofSource source').tokens _ = parsed' at syntaxes units
  cases syntaxes with
  | error faults =>
    refine .inr ⟨_, _, rfl, rfl, messages_eq (sortDiagnostics_related ?_ (diagnostics_related _ faults))⟩
    intro n n' k k' first second
    exact Alignment.ofPlaces_le_iff (follow.imp And.right) (follow'.imp And.right) first second
  | @ok unit unit' _ =>
    cases units with
    | ok aligned =>
      have lowered := aligned.lower ⟨trivial, trivial, Nat.le_refl _⟩ unitName
      dsimp only
      generalize unit.lower unitName = result, unit'.lower unitName = result' at lowered
      cases lowered with
      | @ok program _ same => exact .inl ⟨program, rfl, same ▸ rfl⟩
      | error faults => exact .inr ⟨_, _, rfl, rfl, messages_eq (diagnostics_related _ faults)⟩

theorem compile_of_same_tokens_commented :
    (Lexed.ofSource "class A \x7b int \x7d class \x7b \x7d").faults = [] ∧
      (Lexed.ofSource "class A\n\x7b /* ç */\n\tint\n\x7d\n\nclass // none\n\x7b\x7d").faults = [] ∧
      ((∃ program, compile "A" "class A \x7b int \x7d class \x7b \x7d" = .ok program ∧
          compile "A" "class A\n\x7b /* ç */\n\tint\n\x7d\n\nclass // none\n\x7b\x7d" = .ok program) ∨
        ∃ e e', compile "A" "class A \x7b int \x7d class \x7b \x7d" = .error e ∧
          compile "A" "class A\n\x7b /* ç */\n\tint\n\x7d\n\nclass // none\n\x7b\x7d" = .error e' ∧
          e.diagnostics.map (·.message) = e'.diagnostics.map (·.message)) :=
  ⟨by decide +kernel, by decide +kernel,
    compile_of_same_tokens (by decide +kernel) (by decide +kernel) (by decide +kernel) "A"⟩

end RouteDepot.RouteClass
