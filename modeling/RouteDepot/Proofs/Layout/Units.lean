import RouteDepot.Proofs.Layout.Declarations
import RouteDepot.Proofs.Lexing.Tiling

/-! # Parsing aligned tokens

Tokens of the same kinds form aligned units, or they have the same faults of order, as long as the places of the tokens
belong together. The places of the tokens of a source follow each other, each further on than the one before.
-/

namespace RouteDepot.RouteClass

variable {m : Alignment} {stop stop' last last' : Span}

/-! ### Places of tokens -/

/-- Tokens are faced with tokens of the same kinds at places that belong together. -/
theorem Facing.of_spans {tokens tokens' : List Token} (kinds : tokens.map (·.kind) = tokens'.map (·.kind))
    (lasts : m.stops last.stop last'.stop)
    (follow : (last :: (tokens.map (·.span) ++ [stop])).IsChain fun s t => s.stop ≤ t.start)
    (spans : List.Forall₂ m.Spans (tokens.map (·.span) ++ [stop]) (tokens'.map (·.span) ++ [stop'])) :
    Facing m stop stop' last tokens last' tokens' := by
  induction tokens generalizing tokens' last last' with
  | nil =>
    obtain rfl := List.map_eq_nil_iff.mp kinds.symm
    obtain ⟨here, _⟩ := List.forall₂_cons.mp spans
    exact .nil lasts here (List.isChain_cons_cons.mp follow).1
  | cons token later ih =>
    obtain ⟨⟨kind, span⟩, later', rfl, same, rest⟩ := List.map_eq_cons_iff.mp kinds.symm
    obtain ⟨here, more⟩ := List.forall₂_cons.mp spans
    obtain ⟨apart, further⟩ := List.isChain_cons_cons.mp follow
    obtain rfl : kind = token.kind := same
    exact .cons lasts here apart (ih rest.symm here.stops further more)

namespace Lexed

/-- Where faults of order are reported: at the tokens and at the end. -/
def places (l : Lexed) : List Span := l.tokens.map (·.span) ++ [l.stopSpan]

theorem length_places (l : Lexed) : l.places.length = l.tokens.length + 1 := by simp [places]

theorem ofSource_stop (source : String) : (ofSource source).stop = source.utf8ByteSize := by
  obtain ⟨tiles, tiled⟩ := ofChars_tiled (Text.restAt_zero source.toList)
  rw [← Text.byteLength_toList source, ← Nat.zero_add (Text.byteLength _), ← tiled.stop]
  rfl

/-- The places of a source are spans of it, and no token reaches into what follows it. -/
theorem ofSource_places (source : String) :
    (∀ s ∈ (ofSource source).places, s.Within source.toList 0 source.utf8ByteSize) ∧
      (ofSource source).places.Pairwise fun s t => s.stop ≤ t.start ∧ s.start < t.start := by
  have stands := Text.restAt_zero source.toList
  have size : Text.byteLength source.toList = source.utf8ByteSize := Text.byteLength_toList source
  obtain ⟨tiles, tiled⟩ : ∃ tiles, (ofSource source).TiledBy source.toList 0 source.toList tiles := ofChars_tiled stands
  have stop := ofSource_stop source
  have token {t : Token} (member : t ∈ (ofSource source).tokens) := tiled.of_mem_tokens stands member
  rw [size] at token
  rw [places]
  refine ⟨fun s member => ?_, List.pairwise_append.mpr ⟨?_, List.pairwise_singleton _ _, fun s member t isStop => ?_⟩⟩
  · rcases List.mem_append.mp member with member | isStop
    · obtain ⟨t, present, rfl⟩ := List.mem_map.mp member
      exact (token present).2.1
    · obtain rfl := List.mem_singleton.mp isStop
      have boundary := Text.isBoundary_byteLength source.toList
      rw [size, ← stop] at boundary
      exact ⟨Nat.zero_le _, Nat.le_refl _, stop.le, boundary, boundary⟩
  · refine List.pairwise_map.mpr (tiled.tokens_pairwise.imp_of_mem fun {t u} member _ apart => ?_)
    exact ⟨apart, Nat.lt_of_lt_of_le (token member).1 apart⟩
  · obtain rfl := List.mem_singleton.mp isStop
    obtain ⟨t, present, rfl⟩ := List.mem_map.mp member
    obtain ⟨long, within, _⟩ := token present
    have below : t.span.stop ≤ (ofSource source).stop := stop ▸ within.below
    exact ⟨below, Nat.lt_of_lt_of_le long below⟩

/-- The tokens of two sources with the same kinds face each other. -/
theorem facing_of_kinds_eq {source source' : String}
    (kinds : (ofSource source).tokens.map (·.kind) = (ofSource source').tokens.map (·.kind)) (begins : m.stops 0 0)
    (places : List.Forall₂ m.Spans (ofSource source).places (ofSource source').places) :
    Facing m (ofSource source).stopSpan (ofSource source').stopSpan ⟨0, 0⟩ (ofSource source).tokens ⟨0, 0⟩
      (ofSource source').tokens := by
  have follow := (ofSource_places source).2
  refine .of_spans kinds begins (List.Pairwise.isChain (List.pairwise_cons.mpr ⟨fun _ _ => Nat.zero_le _, ?_⟩)) places
  exact follow.imp And.left

end Lexed

/-! ### Units -/

/-- Tokens that face each other form aligned units, or they have the same faults of order. -/
theorem SourceUnit.ofTokens_related {tokens tokens' : List Token}
    (facing : Facing m stop stop' ⟨0, 0⟩ tokens ⟨0, 0⟩ tokens') :
    Except.Rel (List.Forall₂ (Finding.Alike m.Spans)) (SourceUnit.Aligned m.Spans) (ofTokens tokens stop)
      (ofTokens tokens' stop') := by
  have aligned : Cursor.Aligned m { ahead := tokens, stop } { ahead := tokens', stop := stop' } := ⟨facing, rfl, .nil⟩
  have outcome : Parser.SameOutcome m _ _ _ _ := Parser.sourceUnit_inStep aligned
  unfold ofTokens
  generalize Parser.sourceUnit.run.run { ahead := tokens, stop } = r,
    Parser.sourceUnit.run.run { ahead := tokens', stop := stop' } = r' at outcome
  cases outcome with
  | ok after _ units =>
    dsimp only
    rw [after.faults.isEmpty_eq]
    split
    · exact .ok units
    · exact .error after.faults
  | error after _ fault => exact .error (List.rel_append after.faults (.cons fault .nil))

end RouteDepot.RouteClass
