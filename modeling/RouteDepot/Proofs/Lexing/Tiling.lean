import RouteDepot.Proofs.Lexing.Scanning

/-! # Tokens and what stands between them tile a source

Reading cuts a source into tiles: tokens, blanks, comments and characters that begin no token. No character is left
out and none is in two tiles. The tokens and the faults between them are those of the tiles, at the places where the
tiles stand.
-/

namespace RouteDepot.RouteClass

open Text (RestAt IsBoundary byteLength)

/-! ### Tiles -/

/-- A piece of a source. -/
inductive Tile where
  | token (kind : TokenKind) (spelling : List Char)
  | blank (c : Char)
  | lineComment (inside : List Char)
  | comment (inside : List Char)
  /-- A comment without its closing mark. -/
  | openComment (inside : List Char)
  /-- A character that begins no token. -/
  | foreign (c : Char)
  deriving DecidableEq, Repr

namespace Tile

/-- The characters of a piece. -/
def text : Tile → List Char
  | .token _ spelling => spelling
  | .blank c => [c]
  | .lineComment inside => '/' :: '/' :: inside
  | .comment inside => '/' :: '*' :: inside ++ ['*', '/']
  | .openComment inside => '/' :: '*' :: inside
  | .foreign c => [c]

/-- What makes a piece one of its sort, in front of `rest`. -/
def Fits (rest : List Char) : Tile → Prop
  | .token kind spelling => spelling ≠ [] ∧ ∀ word ∈ kind.word?, word.toList = spelling
  | .blank c => Text.isBlank c
  | .lineComment inside => '\n' ∉ inside ∧ ∀ c ∈ rest.head?, c = '\n'
  | .comment inside => ¬ ['*', '/'] <:+: inside
  | .openComment inside => ¬ ['*', '/'] <:+: inside ∧ rest = []
  | .foreign c => Text.isBlank c = false ∧ Scan.IsForeign c ∧ (c = '/' → rest.head? ≠ some '/' ∧ rest.head? ≠ some '*')

/-- The token that a piece at a place is. -/
def token? : Span × Tile → Option Token
  | (span, .token kind _) => some ⟨kind, span⟩
  | _ => none

/-- The fault that a piece at a place is. -/
def fault? : Span × Tile → Option (Finding LexicalFault)
  | (span, .openComment _) => some ⟨span, .unterminatedComment⟩
  | (span, .foreign c) => some ⟨span, .illegalCharacter c⟩
  | _ => none

/-- Tiles with the places where they stand, one behind the other from a byte offset on. -/
def placed (offset : Nat) : List Tile → List (Span × Tile)
  | [] => []
  | tile :: tiles =>
    let stop := offset + byteLength tile.text
    (⟨offset, stop⟩, tile) :: placed stop tiles

variable {tile : Tile} {tiles : List Tile} {rest : List Char} {offset : Nat} {p : Span × Tile}

theorem le_of_mem_placed (member : p ∈ placed offset tiles) : offset ≤ p.1.start := by
  induction tiles generalizing offset with
  | nil => cases member
  | cons tile tiles ih =>
    rcases List.mem_cons.mp member with rfl | later
    · exact Nat.le_refl _
    · exact Nat.le_trans (Nat.le_add_right ..) (ih later)

theorem placed_pairwise (offset : Nat) (tiles : List Tile) :
    (placed offset tiles).Pairwise fun p q => p.1.stop ≤ q.1.start := by
  induction tiles generalizing offset with
  | nil => exact .nil
  | cons tile tiles ih => exact .cons (fun q => le_of_mem_placed) (ih _)

end Tile

/-- A text cut into tiles. -/
inductive Tiles : List Tile → List Char → Prop
  | nil : Tiles [] []
  | cons {tile : Tile} {tiles : List Tile} {rest : List Char} (fits : tile.Fits rest) (later : Tiles tiles rest) :
    Tiles (tile :: tiles) (tile.text ++ rest)

namespace Tiles

variable {tiles : List Tile} {whole cs before after : List Char} {c : Char} {offset : Nat}

/-- A tile stands where its text is, and it fits there. -/
theorem of_mem_placed {p : Span × Tile} (cut : Tiles tiles cs) (stands : RestAt whole offset cs)
    (member : p ∈ Tile.placed offset tiles) :
    ∃ rest, p.2.Fits rest ∧ RestAt whole p.1.start (p.2.text ++ rest) ∧ p.1.stop = p.1.start + byteLength p.2.text := by
  induction cut generalizing offset with
  | nil => cases member
  | @cons tile tiles rest fits _ ih =>
    rcases List.mem_cons.mp member with rfl | later
    · exact ⟨rest, fits, stands, rfl⟩
    · exact ih stands.behind later

/-- Every character is in a tile. -/
theorem exists_holding (cut : Tiles tiles (before ++ c :: after)) (offset : Nat) :
    ∃ p ∈ Tile.placed offset tiles, ∃ inFront behind, p.2.text = inFront ++ c :: behind ∧
      offset + byteLength before = p.1.start + byteLength inFront := by
  generalize shape : before ++ c :: after = cs at cut
  induction cut generalizing before offset with
  | nil => cases before <;> cases shape
  | @cons tile tiles rest fits later ih =>
    have further {more : List Char} (split : before = tile.text ++ more) (left : more ++ c :: after = rest) :
        ∃ p ∈ Tile.placed offset (tile :: tiles), ∃ inFront behind, p.2.text = inFront ++ c :: behind ∧
          offset + byteLength before = p.1.start + byteLength inFront := by
      obtain ⟨p, member, inFront, behind, holds, place⟩ := ih (offset + byteLength tile.text) left
      refine ⟨p, List.mem_cons_of_mem _ member, inFront, behind, holds, ?_⟩
      rw [split, Text.byteLength_append, ← place, Nat.add_assoc]
    rcases List.append_eq_append_iff.mp shape with ⟨inTile, split, left⟩ | ⟨more, split, left⟩
    · cases inTile with
      | nil =>
        have split : before = tile.text ++ [] := by rw [split, List.append_nil, List.append_nil]
        exact further split left
      | cons d inTile =>
        obtain ⟨rfl, _⟩ := List.cons.inj left
        exact ⟨_, List.mem_cons_self .., before, inTile, split, rfl⟩
    · exact further split left.symm

end Tiles

/-! ### The tiles that are read -/

namespace Scan

/-- A closed comment ends with its first closing mark. -/
theorem eq_append_of_closeComment? {cs rest : List Char} {size : Nat} (closed : closeComment? cs = some (size, rest)) :
    ∃ inside, cs = inside ++ '*' :: '/' :: rest ∧ size = byteLength (inside ++ ['*', '/']) ∧
      ¬ ['*', '/'] <:+: inside := by
  fun_induction closeComment? cs generalizing size rest with
  | case1 => cases closed
  | case2 cs =>
    cases closed
    exact ⟨[], rfl, rfl, by simp⟩
  | case3 c cs unmarked ih =>
    obtain ⟨⟨inner, later⟩, found, same⟩ := Option.map_eq_some_iff.mp closed
    cases same
    obtain ⟨inside, rfl, rfl, without⟩ := ih found
    refine ⟨c :: inside, rfl, rfl, fun marked => ?_⟩
    rcases List.infix_cons_iff.mp marked with ⟨more, front⟩ | within
    · cases front
      exact unmarked _ rfl rfl
    · exact without within

theorem not_infix_of_closeComment?_eq_none {cs : List Char} (unclosed : closeComment? cs = none) :
    ¬ ['*', '/'] <:+: cs := by
  fun_induction closeComment? cs with
  | case1 => simp
  | case2 => cases unclosed
  | case3 c cs unmarked ih =>
    intro marked
    rcases List.infix_cons_iff.mp marked with ⟨more, front⟩ | within
    · cases front
      exact unmarked _ rfl rfl
    · exact ih (Option.map_eq_none_iff.mp unclosed) within

end Scan

namespace Lexed

variable {whole cs : List Char} {offset : Nat}

/-- What was read from a part of a text is what its tiles are. -/
structure TiledBy (l : Lexed) (whole : List Char) (offset : Nat) (cs : List Char) (tiles : List Tile) : Prop where
  cut : Tiles tiles cs
  stop : l.stop = offset + byteLength cs
  tokens : l.tokens = (Tile.placed offset tiles).filterMap Tile.token?
  /-- The faults that are not about the spelling of a token. -/
  between : l.faults.filter (·.cause.isBetweenTokens) = (Tile.placed offset tiles).filterMap Tile.fault?
  within : ∀ f ∈ l.faults, f.span.Within whole offset l.stop

/-- Reading one more tile in front. -/
theorem TiledBy.cons {later : Lexed} {tile : Tile} {tiles : List Tile} {rest : List Char}
    {faults : List (Finding LexicalFault)} (fits : tile.Fits rest)
    (between : faults.filter (·.cause.isBetweenTokens) =
      (Tile.fault? (⟨offset, offset + byteLength tile.text⟩, tile)).toList)
    (within : ∀ f ∈ faults, f.span.Within whole offset (offset + byteLength tile.text))
    (tiled : later.TiledBy whole (offset + byteLength tile.text) rest tiles) :
    Lexed.TiledBy ⟨(Tile.token? (⟨offset, offset + byteLength tile.text⟩, tile)).toList ++ later.tokens, later.stop,
      faults ++ later.faults⟩ whole offset (tile.text ++ rest) (tile :: tiles) where
  cut := .cons fits tiled.cut
  stop := by rw [tiled.stop, Text.byteLength_append, Nat.add_assoc]
  tokens := by
    rw [tiled.tokens, Tile.placed, List.filterMap_cons]
    cases Tile.token? _ <;> rfl
  between := by
    rw [List.filter_append, between, tiled.between, Tile.placed, List.filterMap_cons]
    cases Tile.fault? _ <;> rfl
  within := by
    have forward : offset + byteLength tile.text ≤ later.stop := by
      have stop := tiled.stop
      omega
    intro f member
    rcases List.mem_append.mp member with first | more
    · exact (within f first).mono (Nat.le_refl _) forward
    · exact (tiled.within f more).mono (Nat.le_add_right ..) (Nat.le_refl _)

/-- Passing over a tile that is neither a token nor a fault. -/
theorem TiledBy.skip {later : Lexed} {tile : Tile} {tiles : List Tile} {rest : List Char} (fits : tile.Fits rest)
    (noToken : ∀ span, Tile.token? (span, tile) = none) (noFault : ∀ span, Tile.fault? (span, tile) = none)
    (tiled : later.TiledBy whole (offset + byteLength tile.text) rest tiles) :
    later.TiledBy whole offset (tile.text ++ rest) (tile :: tiles) := by
  have none : ([] : List (Finding LexicalFault)).filter (·.cause.isBetweenTokens) =
      (Tile.fault? (⟨offset, offset + byteLength tile.text⟩, tile)).toList := by
    rw [noFault]
    rfl
  have front := TiledBy.cons fits none nofun tiled
  rwa [noToken] at front

theorem ofChars_tiled (stands : RestAt whole offset cs) :
    ∃ tiles, (ofChars offset cs).TiledBy whole offset cs tiles := by
  fun_induction ofChars offset cs with
  | case1 offset => exact ⟨[], .nil, rfl, rfl, rfl, nofun⟩
  | case2 offset c cs blank ih =>
    obtain ⟨tiles, tiled⟩ := ih stands.tail
    have fits : (Tile.blank c).Fits cs := blank
    exact ⟨.blank c :: tiles, .skip fits (fun _ => rfl) (fun _ => rfl) tiled⟩
  | case3 offset c cs _ slashes comment ih =>
    obtain ⟨rfl, second⟩ := slashes
    obtain ⟨cs, rfl⟩ := List.head?_eq_some_iff.mp second
    let tile := Tile.lineComment (cs.takeWhile (· != '\n'))
    let rest := cs.dropWhile (· != '\n')
    have split : '/' :: '/' :: cs = tile.text ++ rest :=
      congrArg ('/' :: '/' :: ·) List.takeWhile_append_dropWhile.symm
    have size : offset + 1 + byteLength comment = offset + byteLength tile.text := Nat.add_assoc ..
    have fits : tile.Fits rest := by
      refine ⟨fun breaks => ?_, fun c first => ?_⟩
      · have kept := List.mem_takeWhile_imp breaks
        simp at kept
      · simpa using dropWhile_stops (· != '\n') cs c first
    rw [split] at stands ⊢
    obtain ⟨tiles, tiled⟩ := ih (size ▸ stands.behind)
    exact ⟨tile :: tiles, .skip fits (fun _ => rfl) (fun _ => rfl) (size ▸ tiled)⟩
  | case4 offset c cs _ _ marks size rest closed ih =>
    obtain ⟨rfl, second⟩ := marks
    obtain ⟨cs, rfl⟩ := List.head?_eq_some_iff.mp second
    obtain ⟨inside, rfl, rfl, without⟩ := Scan.eq_append_of_closeComment? closed
    let tile := Tile.comment inside
    have split : '/' :: '*' :: (inside ++ '*' :: '/' :: rest) = tile.text ++ rest := by simp [tile, Tile.text]
    have size : offset + 2 + byteLength (inside ++ ['*', '/']) = offset + byteLength tile.text := by
      rw [Nat.add_assoc]
      congr 1
      exact Nat.add_assoc 1 1 _
    rw [split] at stands ⊢
    obtain ⟨tiles, tiled⟩ := ih (size ▸ stands.behind)
    exact ⟨tile :: tiles, .skip without (fun _ => rfl) (fun _ => rfl) (size ▸ tiled)⟩
  | case5 offset c cs _ _ marks unclosed stop =>
    obtain ⟨rfl, second⟩ := marks
    obtain ⟨cs, rfl⟩ := List.head?_eq_some_iff.mp second
    have without : ¬ ['*', '/'] <:+: cs := Scan.not_infix_of_closeComment?_eq_none unclosed
    let tile := Tile.openComment cs
    have size : stop = offset + byteLength tile.text := Nat.add_assoc ..
    clear_value stop
    subst size
    let stop := offset + byteLength tile.text
    have covers : Span.Covers ⟨offset, stop⟩ whole tile.text := ⟨[], (List.append_nil tile.text).symm ▸ stands, rfl⟩
    have nothing : Lexed.TiledBy ⟨[], stop, []⟩ whole stop [] [] := ⟨.nil, rfl, rfl, rfl, nofun⟩
    have fits : tile.Fits [] := ⟨without, rfl⟩
    have within : ∀ f ∈ [(⟨⟨offset, stop⟩, .unterminatedComment⟩ : Finding LexicalFault)],
        f.span.Within whole offset stop := List.forall_mem_singleton.mpr covers.within
    have tiled := TiledBy.cons fits rfl within nothing
    rw [List.append_nil tile.text] at tiled
    exact ⟨[tile], tiled⟩
  | case6 offset c cs notBlank noLine noComment s later tokens ih =>
    obtain ⟨text, split, stop, outcome⟩ : ∃ text, s.Takes whole offset c cs text := Scan.token_takes stands
    clear_value s
    obtain ⟨value, _, rest, faults⟩ := s
    dsimp only at split stop outcome
    subst split stop
    have begins : RestAt whole offset ((c :: text) ++ rest) := stands
    obtain ⟨tiles, tiled⟩ := ih begins.behind
    rcases outcome with ⟨kind, rfl, spelled, concerns⟩ | ⟨rfl, rfl, foreign, rfl⟩
    · let tile := Tile.token kind (c :: text)
      have fits : tile.Fits rest := ⟨List.cons_ne_nil c text, spelled⟩
      have between : faults.filter (·.cause.isBetweenTokens) = [] :=
        List.filter_eq_nil_iff.mpr fun f member => by simp [(concerns f member).1]
      exact ⟨tile :: tiles, TiledBy.cons fits between (fun f member => (concerns f member).2) tiled⟩
    · let tile := Tile.foreign c
      have fits : tile.Fits rest := by
        refine ⟨Bool.eq_false_of_not_eq_true notBlank, foreign, fun slash => ⟨fun second => ?_, fun second => ?_⟩⟩
        · exact noLine ⟨slash, second⟩
        · exact noComment ⟨slash, second⟩
      have covers : Span.Covers ⟨offset, offset + byteLength [c]⟩ whole [c] := ⟨rest, stands, rfl⟩
      exact ⟨tile :: tiles, TiledBy.cons fits rfl (List.forall_mem_singleton.mpr covers.within) tiled⟩

/-! ### What no token covers -/

variable {l : Lexed} {tiles : List Tile} {p : Span × Tile}

/-- The faults between tokens that one tile explains, when they do not concern the tiles in front of it and behind. -/
theorem TiledBy.filter_faults {q : Finding LexicalFault → Bool} (tiled : l.TiledBy whole offset cs tiles)
    (between : ∀ f, q f → f.cause.isBetweenTokens) (member : p ∈ Tile.placed offset tiles)
    (elsewhere : ∀ other ∈ Tile.placed offset tiles, other.1.stop ≤ p.1.start ∨ p.1.stop ≤ other.1.start →
      ∀ f ∈ Tile.fault? other, ¬ q f) :
    l.faults.filter q = (Tile.fault? p).toList.filter q := by
  have selected : l.faults.filter q = (l.faults.filter (·.cause.isBetweenTokens)).filter q := by
    rw [List.filter_filter]
    refine List.filter_congr fun f _ => ?_
    cases kept : q f with
    | false => rfl
    | true => rw [between f kept, Bool.and_self]
  rw [selected, tiled.between]
  have apart := Tile.placed_pairwise offset tiles
  obtain ⟨front, back, shape⟩ := List.append_of_mem member
  rw [shape] at apart elsewhere ⊢
  obtain ⟨_, behind, inFront⟩ := List.pairwise_append.mp apart
  have nothing {others : List (Span × Tile)} (silent : ∀ other ∈ others, ∀ f ∈ Tile.fault? other, ¬ q f) :
      (others.filterMap Tile.fault?).filter q = [] := by
    refine List.filter_eq_nil_iff.mpr fun f found => ?_
    obtain ⟨other, present, fault⟩ := List.mem_filterMap.mp found
    exact silent other present f fault
  have before : (front.filterMap Tile.fault?).filter q = [] := nothing fun other present =>
    elsewhere other (List.mem_append_left _ present) (.inl (inFront other present p (List.mem_cons_self ..)))
  have after : (back.filterMap Tile.fault?).filter q = [] := nothing fun other present =>
    elsewhere other (List.mem_append_right _ (List.mem_cons_of_mem _ present))
      (.inr ((List.pairwise_cons.mp behind).1 other present))
  have here : (p :: back).filterMap Tile.fault? = (Tile.fault? p).toList ++ back.filterMap Tile.fault? := by
    rw [List.filterMap_cons]
    cases Tile.fault? p <;> rfl
  rw [List.filterMap_append, here, List.filter_append, List.filter_append, before, after, List.nil_append,
    List.append_nil]

/-- What a character is that no token covers: a blank, a part of a comment, or a character that begins no token.
A comment without its closing mark and a character that begins no token are reported once. -/
inductive Between (l : Lexed) (tiles : List (Span × Tile)) (offset : Nat) (c : Char) : Prop
  | blank (blank : Text.isBlank c)
  | lineComment {span : Span} {inside : List Char} (member : (span, .lineComment inside) ∈ tiles)
    (holds : span.Holds offset)
  | comment {span : Span} {inside : List Char} (member : (span, .comment inside) ∈ tiles) (holds : span.Holds offset)
  | openComment {span : Span} {inside : List Char} (member : (span, .openComment inside) ∈ tiles)
    (holds : span.Holds offset) (last : span.stop = l.stop)
    (reported : l.faults.filter (·.cause = .unterminatedComment) = [⟨span, .unterminatedComment⟩])
  | foreign
    (reported : (l.faults.filter fun f => f.cause.isIllegalCharacter ∧ f.span.Holds offset) =
      [⟨⟨offset, offset + c.utf8Size⟩, .illegalCharacter c⟩])

theorem span_of_mem_fault? {f : Finding LexicalFault} (fault : f ∈ Tile.fault? p) : f.span = p.1 := by
  obtain ⟨span, tile⟩ := p
  cases tile <;> cases fault <;> rfl

/-- A comment without its closing mark runs to the end of the text. -/
theorem TiledBy.openComment_stop {span : Span} {inside : List Char} (tiled : l.TiledBy whole 0 whole tiles)
    (member : (span, .openComment inside) ∈ Tile.placed 0 tiles) :
    span.start < span.stop ∧ span.stop = byteLength whole := by
  obtain ⟨rest, ⟨_, rfl⟩, stands, stop⟩ := tiled.cut.of_mem_placed (Text.restAt_zero whole) member
  dsimp only at stands stop
  have whole := stands.behind.stop_eq
  have long : 0 < byteLength (Tile.openComment inside).text := Text.byteLength_pos (List.cons_ne_nil '/' _)
  rw [← stop] at whole
  exact ⟨by omega, whole⟩

theorem TiledBy.between_of_uncovered {before after : List Char} {c : Char}
    (tiled : l.TiledBy whole 0 whole tiles) (shape : whole = before ++ c :: after)
    (uncovered : ∀ t ∈ l.tokens, ¬ t.span.Holds (byteLength before)) :
    l.Between (Tile.placed 0 tiles) (byteLength before) c := by
  obtain ⟨⟨span, tile⟩, member, inFront, behind, split, place⟩ := (shape ▸ tiled.cut).exists_holding 0
  obtain ⟨rest, fits, stands, stop⟩ := tiled.cut.of_mem_placed (Text.restAt_zero whole) member
  rw [Nat.zero_add] at place
  dsimp only at split place fits stands stop
  have holds : span.Holds (byteLength before) := by
    have size := c.utf8Size_pos
    rw [split, Text.byteLength_append, byteLength] at stop
    exact ⟨by omega, by omega⟩
  have single {d : Char} (split : [d] = inFront ++ c :: behind) : inFront = [] ∧ d = c := by
    cases inFront with
    | nil => exact ⟨rfl, (List.cons.inj split).1⟩
    | cons => simp at split
  cases tile with
  | token kind spelling =>
    have read : ⟨kind, span⟩ ∈ l.tokens := tiled.tokens ▸ List.mem_filterMap.mpr ⟨_, member, rfl⟩
    exact absurd holds (uncovered _ read)
  | blank d =>
    obtain ⟨rfl, rfl⟩ := single split
    exact .blank fits
  | lineComment inside => exact .lineComment member holds
  | comment inside => exact .comment member holds
  | openComment inside =>
    obtain ⟨long, last⟩ := tiled.openComment_stop member
    refine .openComment member holds ?_ ?_
    · rw [tiled.stop, last, Nat.zero_add]
    · refine tiled.filter_faults (fun f unclosed => ?_) member fun other present apart f fault unclosed => ?_
      · rw [of_decide_eq_true unclosed]
        rfl
      -- Another such comment would end where this one ends.
      · obtain ⟨place, tile⟩ := other
        cases tile with
        | openComment =>
          obtain ⟨otherLong, otherLast⟩ := tiled.openComment_stop present
          dsimp only at apart
          omega
        | foreign => cases fault; cases of_decide_eq_true unclosed
        | token | blank | lineComment | comment => cases fault
  | foreign d =>
    obtain ⟨rfl, rfl⟩ := single split
    have start : byteLength before = span.start := place
    have here : span = ⟨byteLength before, byteLength before + d.utf8Size⟩ :=
      congrArg₂ Span.mk start.symm (start ▸ stop)
    refine .foreign ?_
    rw [tiled.filter_faults (p := (span, .foreign d)) (fun f illegal => ?_) member fun other _ apart f fault illegal => ?_,
      ← here]
    · have reported : decide (true ∧ span.Holds (byteLength before)) := decide_eq_true ⟨rfl, holds⟩
      exact List.filter_cons_of_pos reported
    · have cause : f.cause.isIllegalCharacter := (of_decide_eq_true illegal).1
      cases shape : f.cause with
      | illegalCharacter => rfl
      | _ => rw [shape] at cause; cases cause
    -- Another place that holds this offset would overlap with this one.
    · have otherHolds : f.span.Holds (byteLength before) := (of_decide_eq_true illegal).2
      rw [span_of_mem_fault? fault] at otherHolds
      obtain ⟨otherFrom, otherTo⟩ := otherHolds
      obtain ⟨thisFrom, thisTo⟩ := holds
      dsimp only at apart
      omega

/-! ### Whole sources -/

/-- The tokens of a tiled text are those of its tiles. -/
theorem TiledBy.of_mem_tokens {t : Token} (tiled : l.TiledBy whole offset cs tiles) (stands : RestAt whole offset cs)
    (member : t ∈ l.tokens) :
    t.span.start < t.span.stop ∧ t.span.Within whole 0 (byteLength whole) ∧
      ∀ word ∈ t.kind.word?, t.span.Covers whole word.toList := by
  rw [tiled.tokens] at member
  obtain ⟨⟨span, tile⟩, present, read⟩ := List.mem_filterMap.mp member
  cases tile with
  | token kind spelling =>
    cases read
    obtain ⟨rest, ⟨long, spelled⟩, here, stop⟩ := tiled.cut.of_mem_placed stands present
    dsimp only at here stop
    have covers : span.Covers whole spelling := ⟨rest, here, stop⟩
    have size : 0 < byteLength spelling := Text.byteLength_pos long
    refine ⟨?_, covers.within.mono (Nat.zero_le _) covers.within.stop_boundary.le, fun word isWord => ?_⟩
    · exact stop ▸ Nat.lt_add_of_pos_right size
    · rwa [spelled word isWord]
  | blank | lineComment | comment | openComment | foreign => cases read

theorem TiledBy.tokens_pairwise (tiled : l.TiledBy whole offset cs tiles) :
    l.tokens.Pairwise fun t u => t.span.stop ≤ u.span.start := by
  have span_eq {p : Span × Tile} {t : Token} (read : Tile.token? p = some t) : t.span = p.1 := by
    obtain ⟨span, tile⟩ := p
    cases tile with
    | token => cases read; rfl
    | blank | lineComment | comment | openComment | foreign => cases read
  rw [tiled.tokens]
  refine (Tile.placed_pairwise offset tiles).filterMap _ fun p q apart t read u also => ?_
  rw [span_eq read, span_eq also]
  exact apart

/-- Tokens and what stands between them tile every source. The end is an empty place behind the last character; the
tokens follow each other without overlap, between characters, and words are spelled by their bytes; each character
that no token covers is blank, part of a comment, or reported. -/
theorem ofSource_tiled (source : String) :
    (ofSource source).stopSpan = ⟨source.utf8ByteSize, source.utf8ByteSize⟩ ∧
    (∀ t ∈ (ofSource source).tokens, t.span.start < t.span.stop ∧
      t.span.Within source.toList 0 source.utf8ByteSize) ∧
    (ofSource source).tokens.Pairwise (fun t u => t.span.stop ≤ u.span.start) ∧
    (∀ t ∈ (ofSource source).tokens, ∀ word ∈ t.kind.word?, t.span.Covers source.toList word.toList) ∧
    ∃ tiles, (ofSource source).TiledBy source.toList 0 source.toList tiles ∧
      ∀ before c after, source.toList = before ++ c :: after →
        (∀ t ∈ (ofSource source).tokens, ¬ t.span.Holds (byteLength before)) →
        (ofSource source).Between (Tile.placed 0 tiles) (byteLength before) c := by
  have stands := Text.restAt_zero source.toList
  have size : byteLength source.toList = source.utf8ByteSize := Text.byteLength_toList source
  obtain ⟨tiles, tiled⟩ := ofChars_tiled stands
  have stop : (ofSource source).stop = source.utf8ByteSize := by
    rw [← size, ← Nat.zero_add (byteLength _), ← tiled.stop]
    rfl
  refine ⟨congrArg₂ Span.mk stop stop, fun t member => ?_, tiled.tokens_pairwise, fun t member => ?_, tiles, tiled, ?_⟩
  · obtain ⟨long, within, _⟩ := tiled.of_mem_tokens stands member
    exact ⟨long, size ▸ within⟩
  · exact (tiled.of_mem_tokens stands member).2.2
  · exact fun before c after shape uncovered => tiled.between_of_uncovered shape uncovered

end Lexed

end RouteDepot.RouteClass
