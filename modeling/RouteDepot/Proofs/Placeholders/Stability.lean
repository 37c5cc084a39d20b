import RouteDepot.Proofs.Placeholders.Decomposition
import Mathlib.Data.List.Chain

/-! # A resolved text has no placeholders

Where neither the values of properties nor the defaults in a text have an opening brace, none of them can help to make
an opening. Nor can the literals: each that stands before a placeholder ends in front of the leftmost opening, so it
does not end with a brace. A resolved text therefore has no placeholders, and resolves to itself.
-/

namespace RouteDepot

/-- No value of a property has an opening brace. -/
def Properties.Braceless (properties : Properties) : Prop :=
  ∀ key value, properties.get? key = some value → '{' ∉ value.toList

namespace Placeholder

/-- No default of a placeholder in a text has an opening brace. -/
def BracelessDefaults (text : String) : Prop :=
  ∀ parts, Decomposes text.toList parts → ∀ content key default, .placeholder content ∈ parts →
    Asks content key (some default) → '{' ∉ default

/-- Whether the default of a part, if it has one, is without opening braces. -/
def Segment.bracelessDefault : Segment → Bool
  | .placeholder content => (keyAndDefault (Text.trimList content)).2.all fun default => !default.contains '{'
  | .literal _ | .unclosed => true

theorem bracelessDefaults_iff {text : String} :
    BracelessDefaults text ↔ ∀ part ∈ segments text.toList, part.bracelessDefault = true := by
  simp only [BracelessDefaults, decomposes_iff, forall_eq']
  constructor
  · intro braceless part member
    cases part with
    | literal _ | unclosed => rfl
    | placeholder content =>
      cases given : (keyAndDefault (Text.trimList content)).2 with
      | none => simp [Segment.bracelessDefault, given]
      | some default =>
        have notEmpty : Text.trimList content ≠ [] := by
          intro empty
          rw [empty] at given
          cases given
        have asks := asks_keyAndDefault notEmpty
        rw [given] at asks
        simpa [Segment.bracelessDefault, given] using braceless content _ default member asks
  · intro braceless content key default member asks
    obtain ⟨_, found⟩ := asks_iff.mp asks
    simpa [Segment.bracelessDefault, found] using braceless _ member

instance (text : String) : Decidable (BracelessDefaults text) := decidable_of_iff _ bracelessDefaults_iff.symm

/-! ### Doubled characters -/

/-- A character is nowhere doubled when no two neighbours are that character. -/
theorem not_isInfix_iff_isChain {c : Char} {cs : List Char} :
    ¬ [c, c] <:+: cs ↔ cs.IsChain fun a b => a = c → b ≠ c := by
  rw [List.isChain_iff_forall_rel_of_append_cons_cons]
  constructor
  · rintro absent a b before after rfl rfl rfl
    exact absent ⟨before, after, by simp⟩
  · rintro chain ⟨before, after, rfl⟩
    have neighbours := @chain c c before after (by simp)
    exact neighbours rfl rfl

/-- Nothing is doubled across a seam when the first text does not end with the character. -/
theorem not_isInfix_append {c : Char} {first second : List Char} (left : ¬ [c, c] <:+: first)
    (right : ¬ [c, c] <:+: second) (seam : c ∉ first.getLast?) : ¬ [c, c] <:+: first ++ second := by
  rw [not_isInfix_iff_isChain] at left right ⊢
  refine List.isChain_append.mpr ⟨left, right, ?_⟩
  rintro a last _ _ rfl
  exact absurd last seam

/-- What stands in front of the leftmost double occurrence has none, and does not end with the character. -/
theorem CutsAt.before_plain {c : Char} {cs before after : List Char} (cuts : CutsAt c cs before after) :
    ¬ [c, c] <:+: before ∧ c ∉ before.getLast? := by
  constructor
  · rintro ⟨left, right, rfl⟩
    have shorter := cuts.leftmost left (right ++ c :: c :: after) (by simp [cuts.whole])
    simp only [List.length_append, List.length_cons] at shorter
    omega
  · intro last
    obtain ⟨left, rfl⟩ := List.getLast?_eq_some_iff.mp last
    have shorter := cuts.leftmost left (c :: after) (by simp [cuts.whole])
    simp only [List.length_append, List.length_cons] at shorter
    omega

/-! ### Resolved texts -/

variable {properties : Properties}

/-- What stands for a placeholder has no opening brace. -/
theorem braceless_of_standsFor (values : properties.Braceless) {content text : List Char}
    (defaults : ∀ key default, Asks content key (some default) → '{' ∉ default)
    (stands : StandsFor properties (.placeholder content) text) : '{' ∉ text := by
  cases stands with
  | property _ defined => exact values _ _ defined
  | default asks _ => exact defaults _ _ asks

/-- The parts of a text come to a text without an opening. -/
theorem plain_of_decomposes (values : properties.Braceless) {cs : List Char} {parts : List Segment}
    (decomposes : Decomposes cs parts)
    (defaults : ∀ content, .placeholder content ∈ parts → ∀ key default, Asks content key (some default) →
      '{' ∉ default)
    {texts : List (List Char)} (stand : List.Forall₂ (StandsFor properties) parts texts) :
    ¬ ['{', '{'] <:+: texts.flatten := by
  induction decomposes generalizing texts with
  | literal absent =>
    cases stand with
    | cons literal none =>
      cases literal
      cases none
      simpa using absent
  | unclosed =>
    cases stand with
    | cons _ later =>
      cases later with
      | cons impossible _ => cases impossible
  | @placeholder cs before inside content after later cuts ends _ ih =>
    cases stand with
    | cons literal stand =>
      cases literal
      cases stand with
      | @cons _ text _ texts stands stand =>
        have braceless : '{' ∉ text := braceless_of_standsFor values (defaults content (by simp)) stands
        have plainRest : ¬ ['{', '{'] <:+: texts.flatten :=
          ih (fun content member => defaults content (by simp [member])) stand
        have plainText : ¬ ['{', '{'] <:+: text := fun doubled => braceless (doubled.subset (by simp))
        have seam : '{' ∉ text.getLast? := fun last => braceless (List.mem_of_getLast? last)
        obtain ⟨plainBefore, seamBefore⟩ := cuts.before_plain
        exact not_isInfix_append plainBefore (not_isInfix_append plainText plainRest seam) seamBefore

/-- A text without an opening resolves to itself. -/
theorem resolve_eq_self {text : String} (plain : ¬ ['{', '{'] <:+: text.toList) : properties.resolve text = .ok text := by
  have single : segments text.toList = [.literal text.toList] := decomposes_iff.mp (.literal plain)
  simp [Properties.resolve, single, resolveSegments, Segment.resolve]

/-- A text that is resolved where no value and no default has an opening brace is resolved for good. -/
theorem plain_of_resolve (values : properties.Braceless) {text resolved : String} (defaults : BracelessDefaults text)
    (success : properties.resolve text = .ok resolved) :
    ¬ ['{', '{'] <:+: resolved.toList ∧ properties.resolve resolved = .ok resolved := by
  have decomposes := decomposes_segments text.toList
  obtain ⟨chars, found, rfl⟩ := Except.map_eq_ok_iff.mp success
  obtain ⟨texts, stand, rfl⟩ := resolveSegments_eq_ok_iff.mp found
  have plain : ¬ ['{', '{'] <:+: (String.ofList texts.flatten).toList := by
    rw [String.toList_ofList]
    exact plain_of_decomposes values decomposes (fun content member key default asks =>
      defaults _ decomposes content key default member asks) stand
  exact ⟨plain, resolve_eq_self plain⟩

end Placeholder

end RouteDepot
