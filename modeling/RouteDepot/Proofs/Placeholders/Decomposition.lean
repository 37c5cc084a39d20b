import RouteDepot.Context.Placeholder
import RouteDepot.Proofs.Results
import RouteDepot.Proofs.Trimming

/-! # Texts fall into literals and placeholders

A text is read as literals with placeholders between them: each placeholder begins at the leftmost opening of what is
left to read, and ends at the first closing behind it. `Decomposes` states this without a scan, and every text has
exactly one decomposition. Resolving a text puts something in the place of each placeholder of the decomposition, or
fails at the first one that asks for something that is not there.
-/

namespace RouteDepot.Placeholder

open Text (TrimsTo trimsTo_iff)

/-! ### Cuts -/

/-- A text is cut at the leftmost double occurrence of a character. -/
structure CutsAt (c : Char) (cs before after : List Char) : Prop where
  whole : cs = before ++ c :: c :: after
  leftmost : ∀ l r, cs = l ++ c :: c :: r → before.length ≤ l.length

theorem CutsAt.unique {c : Char} {cs before after before' after' : List Char} (first : CutsAt c cs before after)
    (second : CutsAt c cs before' after') : before = before' ∧ after = after' := by
  have sameLength : before.length = before'.length :=
    Nat.le_antisymm (first.leftmost _ _ second.whole) (second.leftmost _ _ first.whole)
  obtain ⟨rfl, same⟩ := List.append_inj (first.whole.symm.trans second.whole) sameLength
  simp only [List.cons.injEq, true_and] at same
  exact ⟨rfl, same⟩

theorem CutsAt.isInfix {c : Char} {cs before after : List Char} (cuts : CutsAt c cs before after) : [c, c] <:+: cs :=
  ⟨before, after, by simp [cuts.whole]⟩

theorem leftmost_of_cutDouble? {c : Char} {cs before after : List Char}
    (found : cutDouble? c cs = some (before, after)) (l r : List Char) (other : cs = l ++ c :: c :: r) :
    before.length ≤ l.length := by
  fun_induction cutDouble? c cs generalizing before l with
  | case1 a b later same =>
    simp only [Option.some.injEq, Prod.mk.injEq] at found
    obtain ⟨rfl, _⟩ := found
    exact Nat.zero_le _
  | case2 a b later differs ih =>
    simp only [Option.map_eq_some_iff, Prod.mk.injEq, Prod.exists] at found
    obtain ⟨before, _, inner, rfl, rfl⟩ := found
    cases l with
    | nil =>
      simp only [List.nil_append, List.cons.injEq] at other
      exact absurd ⟨other.1, other.2.1⟩ differs
    | cons x l =>
      simp only [List.cons_append, List.cons.injEq] at other
      have shorter := ih inner l other.2
      simpa using shorter
  | case3 => cases found

theorem cutDouble?_isSome {c : Char} (before after : List Char) : (cutDouble? c (before ++ c :: c :: after)).isSome := by
  induction before with
  | nil => simp [cutDouble?]
  | cons a before ih =>
    cases before with
    | nil =>
      by_cases same : a = c
      · simp [cutDouble?, same]
      · simp [cutDouble?, same]
    | cons b before =>
      simp only [List.cons_append] at ih ⊢
      unfold cutDouble?
      split
      · rfl
      · simpa using ih

theorem cutDouble?_eq_some_iff {c : Char} {cs before after : List Char} :
    cutDouble? c cs = some (before, after) ↔ CutsAt c cs before after := by
  constructor
  · intro found
    exact ⟨cutDouble?_eq_some found, leftmost_of_cutDouble? found⟩
  · intro cuts
    have isSome := cutDouble?_isSome (c := c) before after
    rw [← cuts.whole] at isSome
    obtain ⟨⟨before', after'⟩, found⟩ := Option.isSome_iff_exists.mp isSome
    obtain ⟨rfl, rfl⟩ := cuts.unique ⟨cutDouble?_eq_some found, leftmost_of_cutDouble? found⟩
    exact found

theorem cutDouble?_eq_none_iff {c : Char} {cs : List Char} : cutDouble? c cs = none ↔ ¬ [c, c] <:+: cs := by
  constructor
  · rintro none ⟨before, after, rfl⟩
    have isSome : (cutDouble? c (before ++ [c, c] ++ after)).isSome := by
      rw [List.append_assoc]
      exact cutDouble?_isSome before after
    rw [none] at isSome
    cases isSome
  · intro absent
    rw [Option.eq_none_iff_forall_ne_some]
    rintro ⟨before, after⟩ found
    exact absent ⟨before, after, by simp [cutDouble?_eq_some found]⟩

/-! ### Decompositions -/

/-- The parts of a text: literals with placeholders between them, or with an opening that is not closed at the end. -/
inductive Decomposes : List Char → List Segment → Prop
  | literal {cs} : ¬ ['{', '{'] <:+: cs → Decomposes cs [.literal cs]
  | unclosed {cs before inside} : CutsAt '{' cs before inside → ¬ ['}', '}'] <:+: inside →
      Decomposes cs [.literal before, .unclosed]
  | placeholder {cs before inside content after later} : CutsAt '{' cs before inside →
      CutsAt '}' inside content after → Decomposes after later →
      Decomposes cs (.literal before :: .placeholder content :: later)

theorem decomposes_segments (cs : List Char) : Decomposes cs (segments cs) := by
  fun_induction segments cs with
  | case1 cs opened => exact .literal (cutDouble?_eq_none_iff.mp opened)
  | case2 cs before inside opened closed =>
    exact .unclosed (cutDouble?_eq_some_iff.mp opened) (cutDouble?_eq_none_iff.mp closed)
  | case3 cs before inside opened content after closed _ ih =>
    exact .placeholder (cutDouble?_eq_some_iff.mp opened) (cutDouble?_eq_some_iff.mp closed) ih

theorem Decomposes.unique {cs : List Char} {parts others : List Segment} (first : Decomposes cs parts)
    (second : Decomposes cs others) : parts = others := by
  induction first generalizing others with
  | literal absent =>
    cases second with
    | literal => rfl
    | unclosed cuts => exact absurd cuts.isInfix absent
    | placeholder cuts => exact absurd cuts.isInfix absent
  | unclosed cuts unclosed =>
    cases second with
    | literal absent => exact absurd cuts.isInfix absent
    | unclosed cuts' =>
      obtain ⟨rfl, _⟩ := cuts.unique cuts'
      rfl
    | placeholder cuts' ends =>
      obtain ⟨_, rfl⟩ := cuts.unique cuts'
      exact absurd ends.isInfix unclosed
  | placeholder cuts ends _ ih =>
    cases second with
    | literal absent => exact absurd cuts.isInfix absent
    | unclosed cuts' unclosed =>
      obtain ⟨_, rfl⟩ := cuts.unique cuts'
      exact absurd ends.isInfix unclosed
    | placeholder cuts' ends' later =>
      obtain ⟨rfl, rfl⟩ := cuts.unique cuts'
      obtain ⟨rfl, rfl⟩ := ends.unique ends'
      rw [ih later]

/-- A text has exactly one decomposition. -/
theorem decomposes_iff {cs : List Char} {parts : List Segment} : Decomposes cs parts ↔ segments cs = parts := by
  constructor
  · exact (decomposes_segments cs).unique
  · rintro rfl
    exact decomposes_segments cs

/-! ### Placeholders -/

/-- The content of a placeholder names a key, which ends at the first colon; behind it stands the default, as it is.
Blanks around the content and around the key do not count. -/
inductive Asks : List Char → List Char → Option (List Char) → Prop
  | key {content key} : TrimsTo content key → key ≠ [] → ':' ∉ key → Asks content key none
  | keyOrDefault {content before default key} : TrimsTo content (before ++ ':' :: default) → ':' ∉ before →
      TrimsTo before key → Asks content key (some default)

/-- What stands in the resolved text for a part of a text. -/
inductive StandsFor (properties : Properties) : Segment → List Char → Prop
  | literal (text : List Char) : StandsFor properties (.literal text) text
  | property {content key default value} : Asks content key default →
      properties.get? (String.ofList key) = some value → StandsFor properties (.placeholder content) value.toList
  | default {content key default} : Asks content key (some default) → properties.get? (String.ofList key) = none →
      StandsFor properties (.placeholder content) default

/-- What is wrong with a part of the whole text. -/
inductive Offends (properties : Properties) (whole : String) : Segment → ContextError → Prop
  | unclosed : Offends properties whole .unclosed (.malformedPlaceholder whole)
  | blank {content} : TrimsTo content [] → Offends properties whole (.placeholder content) (.malformedPlaceholder whole)
  | undefined {content key} : Asks content key none → properties.get? (String.ofList key) = none →
      Offends properties whole (.placeholder content) (.unresolvedPlaceholder (String.ofList key))

theorem asks_iff {content key : List Char} {default : Option (List Char)} :
    Asks content key default ↔
      Text.trimList content ≠ [] ∧ keyAndDefault (Text.trimList content) = (key, default) := by
  unfold keyAndDefault
  constructor
  · rintro (⟨trims, notEmpty, noColon⟩ | ⟨trims, noColon, trimsKey⟩)
    · rw [trimsTo_iff.mp trims, Text.cutList?_eq_none.mpr noColon]
      exact ⟨notEmpty, rfl⟩
    · obtain rfl := trimsTo_iff.mp trimsKey
      rw [trimsTo_iff.mp trims, Text.cutList?_append noColon]
      exact ⟨by simp, rfl⟩
  · rintro ⟨notEmpty, found⟩
    split at found
    · rename_i before after cut
      obtain ⟨rfl, rfl⟩ := Prod.mk.inj found
      obtain ⟨whole, noColon⟩ := Text.cutList?_eq_some cut
      exact .keyOrDefault (trimsTo_iff.mpr whole) noColon (trimsTo_iff.mpr rfl)
    · rename_i absent
      obtain ⟨rfl, rfl⟩ := Prod.mk.inj found
      exact .key (trimsTo_iff.mpr rfl) notEmpty (Text.cutList?_eq_none.mp absent)

theorem asks_keyAndDefault {content : List Char} (notEmpty : Text.trimList content ≠ []) :
    Asks content (keyAndDefault (Text.trimList content)).1 (keyAndDefault (Text.trimList content)).2 :=
  asks_iff.mpr ⟨notEmpty, rfl⟩

theorem Segment.resolve_eq_ok_iff {properties : Properties} {whole : String} {part : Segment} {text : List Char} :
    part.resolve properties whole = .ok text ↔ StandsFor properties part text := by
  cases part with
  | literal own =>
    constructor
    · rintro ⟨⟩
      exact .literal _
    · rintro ⟨⟩
      rfl
  | unclosed => exact ⟨nofun, nofun⟩
  | placeholder content =>
    simp only [resolve]
    constructor
    · intro resolved
      split at resolved
      · cases resolved
      · rename_i notEmpty
        have asks := asks_keyAndDefault (by simpa using notEmpty)
        split at resolved
        · rename_i value defined
          obtain rfl := Except.ok.inj resolved
          exact .property asks defined
        · rename_i default undefined given
          obtain rfl := Except.ok.inj resolved
          rw [given] at asks
          exact .default asks undefined
        · cases resolved
    · intro stands
      cases stands with
      | property asks defined =>
        obtain ⟨notEmpty, found⟩ := asks_iff.mp asks
        simp [notEmpty, found, defined]
      | default asks undefined =>
        obtain ⟨notEmpty, found⟩ := asks_iff.mp asks
        simp [notEmpty, found, undefined]

theorem Segment.resolve_eq_error_iff {properties : Properties} {whole : String} {part : Segment}
    {fault : ContextError} :
    part.resolve properties whole = .error fault ↔ Offends properties whole part fault := by
  cases part with
  | literal own => exact ⟨nofun, nofun⟩
  | unclosed =>
    constructor
    · rintro ⟨⟩
      exact .unclosed
    · rintro ⟨⟩
      rfl
  | placeholder content =>
    simp only [resolve]
    constructor
    · intro failed
      split at failed
      · rename_i empty
        obtain rfl := Except.error.inj failed
        exact .blank (trimsTo_iff.mpr (by simpa using empty))
      · rename_i notEmpty
        have asks := asks_keyAndDefault (by simpa using notEmpty)
        split at failed
        · cases failed
        · cases failed
        · rename_i undefined noDefault
          obtain rfl := Except.error.inj failed
          rw [noDefault] at asks
          exact .undefined asks undefined
    · intro offends
      cases offends with
      | blank blank => simp [trimsTo_iff.mp blank]
      | undefined asks undefined =>
        obtain ⟨notEmpty, found⟩ := asks_iff.mp asks
        simp [notEmpty, found, undefined]

/-! ### Whole texts -/

theorem resolveSegments_eq_ok_iff {properties : Properties} {whole : String} {parts : List Segment}
    {text : List Char} :
    resolveSegments properties whole parts = .ok text ↔
      ∃ texts, List.Forall₂ (StandsFor properties) parts texts ∧ text = texts.flatten := by
  induction parts generalizing text with
  | nil => simp [resolveSegments, eq_comm]
  | cons part later ih =>
    simp only [resolveSegments, Except.bind_eq_ok_iff, Segment.resolve_eq_ok_iff, ih, List.forall₂_cons_left_iff]
    constructor
    · rintro ⟨first, stands, _, ⟨texts, others, rfl⟩, same⟩
      obtain rfl := Except.ok.inj same
      exact ⟨first :: texts, ⟨first, texts, stands, others, rfl⟩, rfl⟩
    · rintro ⟨_, ⟨first, texts, stands, others, rfl⟩, rfl⟩
      exact ⟨first, stands, texts.flatten, ⟨texts, others, rfl⟩, rfl⟩

theorem resolveSegments_eq_error_iff {properties : Properties} {whole : String} {parts : List Segment}
    {fault : ContextError} :
    resolveSegments properties whole parts = .error fault ↔
      ∃ before part after, parts = before ++ part :: after ∧ (∀ good ∈ before, ∃ text, StandsFor properties good text) ∧
        Offends properties whole part fault := by
  induction parts with
  | nil => simp [resolveSegments]
  | cons part later ih =>
    simp only [resolveSegments, Except.bind_eq_error_iff, Segment.resolve_eq_error_iff, Segment.resolve_eq_ok_iff, ih,
      List.cons_eq_append_iff]
    constructor
    · rintro (offends | ⟨text, stands, ⟨before, other, after, rfl, good, offends⟩ | ⟨_, _, impossible⟩⟩)
      · exact ⟨[], part, later, .inl ⟨rfl, rfl⟩, by simp, offends⟩
      · refine ⟨part :: before, other, after, .inr ⟨before, rfl, rfl⟩, ?_, offends⟩
        exact List.forall_mem_cons.mpr ⟨⟨text, stands⟩, good⟩
      · cases impossible
    · rintro ⟨before, other, after, ⟨rfl, same⟩ | ⟨before, rfl, rfl⟩, good, offends⟩
      · obtain ⟨rfl, rfl⟩ := List.cons.inj same
        exact .inl offends
      · obtain ⟨⟨text, stands⟩, good⟩ := List.forall_mem_cons.mp good
        exact .inr ⟨text, stands, .inl ⟨before, other, after, rfl, good, offends⟩⟩

/-- A text resolves to its literals with something in the place of every placeholder, in order, which is not read
again. It fails to resolve by what is wrong with the first part of its decomposition for which nothing stands. -/
theorem resolve_by_decomposition (properties : Properties) (text : String) :
    (∃! parts, Decomposes text.toList parts) ∧
    (∀ resolved, properties.resolve text = .ok resolved ↔
      ∃ parts texts, Decomposes text.toList parts ∧ List.Forall₂ (StandsFor properties) parts texts ∧
        resolved = String.ofList texts.flatten) ∧
    ∀ fault, properties.resolve text = .error fault ↔
      ∃ before part after, Decomposes text.toList (before ++ part :: after) ∧
        (∀ good ∈ before, ∃ stands, StandsFor properties good stands) ∧ Offends properties text part fault := by
  simp only [decomposes_iff]
  refine ⟨⟨_, rfl, fun _ same => same.symm⟩, fun resolved => ?_, fun fault => ?_⟩
  · simp only [Properties.resolve, Except.map_eq_ok_iff, resolveSegments_eq_ok_iff]
    constructor
    · rintro ⟨_, ⟨texts, stands, rfl⟩, rfl⟩
      exact ⟨_, texts, rfl, stands, rfl⟩
    · rintro ⟨_, texts, rfl, stands, rfl⟩
      exact ⟨_, ⟨texts, stands, rfl⟩, rfl⟩
  · simp only [Properties.resolve, Except.map_eq_error_iff, resolveSegments_eq_error_iff]

end RouteDepot.Placeholder
