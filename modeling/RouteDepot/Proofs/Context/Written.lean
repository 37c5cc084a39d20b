import RouteDepot.Context.Merge
import RouteDepot.Proofs.Context.Growth
import RouteDepot.Proofs.Lexing.Characters
import RouteDepot.Proofs.Placeholders.Stability
import RouteDepot.Proofs.Results
import RouteDepot.Proofs.Trimming
import Mathlib.Data.List.ReduceOption

/-! # Configurations written back

A configuration is written back as a draft option by option, each in the spelling that is read for it. If no placeholder
opens in its texts, the draft resolves to the configuration that it was written from, against whatever properties, and
it can be merged wherever this configuration agrees with what is held.
-/

namespace RouteDepot

/-! ### Numbers -/

namespace Text

/-- Further digits do not make a number smaller. -/
theorem le_ofDigitChars (value : Nat) (digits : List Char) : value ≤ Nat.ofDigitChars 10 digits value := by
  induction digits generalizing value with
  | nil => exact Nat.le_refl value
  | cons c digits ih =>
    rw [Nat.ofDigitChars_cons]
    have longer := ih (10 * value + (c.toNat - '0'.toNat))
    omega

/-- Digits are read to the end when the number that they come to is below the limit. -/
theorem continueNumber_of_digits {limit value : Nat} {digits : List Char} (decimal : ∀ c ∈ digits, c.isDigit)
    (below : Nat.ofDigitChars 10 digits value < limit) :
    continueNumber limit value digits = .ok (Nat.ofDigitChars 10 digits value) := by
  induction digits generalizing value with
  | nil => rfl
  | cons c digits ih =>
    obtain ⟨first, decimal⟩ := List.forall_mem_cons.mp decimal
    rw [Nat.ofDigitChars_cons] at below ⊢
    have next : 10 * value + (c.toNat - '0'.toNat) < limit := (le_ofDigitChars _ digits).trans_lt below
    rw [continueNumber, if_pos first]
    simp only [next, if_true]
    exact ih decimal below

/-- The decimal digits of a number are read as this number. -/
theorem numberBelow_toDigits {limit n : Nat} (below : n < limit) : numberBelow limit (Nat.toDigits 10 n) = .ok n := by
  have decimal : ∀ c ∈ Nat.toDigits 10 n, c.isDigit := fun _ => Nat.isDigit_of_mem_toDigits (by decide) (by decide)
  have value : Nat.ofDigitChars 10 (Nat.toDigits 10 n) 0 = n := Nat.ofDigitChars_toDigits (by decide) (by decide)
  have read : continueNumber limit 0 (Nat.toDigits 10 n) = .ok n := by
    rw [continueNumber_of_digits decimal (by rwa [value]), value]
  obtain ⟨first, digits, spelled⟩ := List.exists_cons_of_ne_nil (Nat.toDigits_ne_nil (n := n) (b := 10))
  rw [spelled] at decimal read ⊢
  have unsigned : first ≠ '+' := by
    rintro rfl
    exact absurd (decimal '+' List.mem_cons_self) (by decide)
  unfold numberBelow
  split
  · contradiction
  · next same => exact absurd (List.cons.inj same).1 unsigned
  · next same => exact absurd (List.cons.inj same).1 unsigned
  · exact read

end Text

/-! ### Options -/

namespace Port

theorem isDigit_of_mem_toString {port : Port} {c : Char} (member : c ∈ (toString port.val).toList) : c.isDigit := by
  rw [Nat.toString_eq_ofList_toDigits, String.toList_ofList] at member
  exact Nat.isDigit_of_mem_toDigits (by decide) (by decide) member

/-- The digits of a port are read as this port. -/
theorem ofText_toString (port : Port) : ofText (toString port.val) = .ok port := by
  have notBlank {c : Char} (member : c ∈ (toString port.val).toList) : Text.isBlank c = false :=
    (Text.isDigit_disjoint (isDigit_of_mem_toString member)).2
  have trimmed : Text.trimList (toString port.val).toList = (toString port.val).toList :=
    Text.trimList_eq_self (fun _ begins => notBlank (List.mem_of_mem_head? begins))
      fun _ ends => notBlank (List.mem_of_getLast? ends)
  have read : Text.numberBelow portCount (Text.trimList (toString port.val).toList) = .ok port.val := by
    rw [trimmed, Nat.toString_eq_ofList_toDigits, String.toList_ofList, Text.numberBelow_toDigits port.isLt]
  unfold ofText
  split
  · next n found =>
    obtain rfl := Except.ok.inj (read.symm.trans found)
    rfl
  · next fault found => cases read.symm.trans found

end Port

theorem Scheme.ofText_name (scheme : Scheme) : ofText scheme.name = .ok scheme := by
  cases scheme <;> rfl

theorem BindingMode.ofText_name (mode : BindingMode) : ofText mode.name = .ok mode := by
  cases mode <;> rfl

theorem corsOfText_toString (flag : Bool) : corsOfText (toString flag) = .ok flag := by
  cases flag <;> rfl

namespace Dictionary

variable {α ε : Type} {f : α → Except ε α}

theorem traverseEntries_eq_self {entries : List (String × α)} (kept : ∀ entry ∈ entries, f entry.2 = .ok entry.2) :
    traverseEntries f entries = .ok entries := by
  induction entries with
  | nil => rfl
  | cons entry later ih =>
    obtain ⟨key, value⟩ := entry
    obtain ⟨first, kept⟩ := List.forall_mem_cons.mp kept
    simp only [traverseEntries, first, ih kept, Except.bind_ok, Except.pure_eq_ok]

/-- A dictionary whose values are all turned into themselves stays as it is. -/
theorem traverse_eq_self {d : Dictionary α} (kept : ∀ entry ∈ d.entries, f entry.2 = .ok entry.2) :
    d.traverse f = .ok d := by
  have entries := traverseEntries_eq_self kept
  unfold traverse
  split
  · next turned found =>
    obtain rfl := Except.ok.inj (entries.symm.trans found)
    rfl
  · next fault found => cases entries.symm.trans found

end Dictionary

namespace RestConfigurationDraft

variable {α : Type} {properties : Properties}

/-- No placeholder opens in a text without opening braces. -/
theorem plain_of_notMem {text : String} (braceless : '{' ∉ text.toList) : ¬ ['{', '{'] <:+: text.toList :=
  fun opening => braceless (opening.subset List.mem_cons_self)

/-- An option in which no placeholder opens is read as it is written. -/
theorem option_some {text : String} (plain : ¬ ['{', '{'] <:+: text.toList) (default : α)
    (read : String → Except ContextError α) : option properties (some text) default read = read text := by
  rw [option, Placeholder.resolve_eq_self plain, Except.bind_ok]

theorem textOption_eq_self {text : Option String} (plain : ∀ t ∈ text, ¬ ['{', '{'] <:+: t.toList) :
    textOption properties text = .ok text := by
  cases text with
  | none => rfl
  | some text => exact option_some (plain text rfl) none _

end RestConfigurationDraft

/-! ### Whole configurations -/

namespace RestConfiguration

/-- The draft that spells a configuration out: options without a value are not set. -/
def written (c : RestConfiguration) : RestConfigurationDraft where
  component := c.component
  host := c.host
  port := c.port.map fun port => toString port.val
  scheme := some c.scheme.name
  contextPath := c.contextPath
  apiContextPath := c.apiContextPath
  bindingMode := some c.bindingMode.name
  enableCors := some (toString c.enableCors)
  componentProperties := c.componentProperties
  endpointProperties := c.endpointProperties
  consumerProperties := c.consumerProperties
  dataFormatProperties := c.dataFormatProperties

/-- The texts of a configuration: those of its options, and the values of its free properties. -/
def texts (c : RestConfiguration) : List String :=
  [c.component, c.host, c.contextPath, c.apiContextPath].reduceOption ++
    [c.componentProperties, c.endpointProperties, c.consumerProperties, c.dataFormatProperties].flatMap
      fun group => group.entries.map (·.2)

/-- No placeholder opens in a text of the configuration. -/
def Plain (c : RestConfiguration) : Prop := ∀ text ∈ c.texts, ¬ ['{', '{'] <:+: text.toList

open RestConfigurationDraft

variable {c : RestConfiguration} {properties : Properties}

theorem Plain.textOption_eq (plain : c.Plain) {text : Option String}
    (listed : text ∈ [c.component, c.host, c.contextPath, c.apiContextPath]) :
    textOption properties text = .ok text :=
  textOption_eq_self fun t given => plain t (List.mem_append_left _
    (List.reduceOption_mem_iff.mpr (Option.mem_def.mp given ▸ listed)))

theorem Plain.traverse_eq (plain : c.Plain) {group : Dictionary String}
    (listed : group ∈ [c.componentProperties, c.endpointProperties, c.consumerProperties, c.dataFormatProperties]) :
    group.traverse properties.resolve = .ok group :=
  Dictionary.traverse_eq_self fun _ member => Placeholder.resolve_eq_self (plain _ (List.mem_append_right _
    (List.mem_flatMap.mpr ⟨group, listed, List.mem_map_of_mem member⟩)))

/-- A draft that spells a configuration out resolves to it. -/
theorem Plain.resolve_written (plain : c.Plain) (properties : Properties) : c.written.resolve properties = .ok c := by
  have port : option properties c.written.port none (fun text => some <$> Port.ofText text) = .ok c.port := by
    cases given : c.port with
    | none => simp only [written, given, Option.map_none, option]
    | some port =>
      have braceless : '{' ∉ (toString port.val).toList := fun brace =>
        absurd (Port.isDigit_of_mem_toString brace) (by decide)
      simp only [written, given, Option.map_some, option_some (plain_of_notMem braceless), Port.ofText_toString]
      rfl
  have scheme : option properties c.written.scheme .http Scheme.ofText = .ok c.scheme := by
    have braceless : '{' ∉ c.scheme.name.toList := by cases c.scheme <;> decide
    exact (option_some (plain_of_notMem braceless) _ _).trans c.scheme.ofText_name
  have bindingMode : option properties c.written.bindingMode .off BindingMode.ofText = .ok c.bindingMode := by
    have braceless : '{' ∉ c.bindingMode.name.toList := by cases c.bindingMode <;> decide
    exact (option_some (plain_of_notMem braceless) _ _).trans c.bindingMode.ofText_name
  have enableCors : option properties c.written.enableCors false corsOfText = .ok c.enableCors := by
    have braceless : '{' ∉ (toString c.enableCors).toList := by cases c.enableCors <;> decide
    exact (option_some (plain_of_notMem braceless) _ _).trans (corsOfText_toString c.enableCors)
  have texts {text : Option String} (listed : text ∈ [c.component, c.host, c.contextPath, c.apiContextPath]) :
      textOption properties text = .ok text := plain.textOption_eq listed
  have groups {group : Dictionary String} (listed : group ∈ [c.componentProperties, c.endpointProperties,
      c.consumerProperties, c.dataFormatProperties]) : group.traverse properties.resolve = .ok group :=
    plain.traverse_eq listed
  unfold resolve
  rw [port, Except.bind_ok, scheme, Except.bind_ok, bindingMode, Except.bind_ok, enableCors, Except.bind_ok]
  simp only [written, texts, groups, List.mem_cons, true_or, or_true, Except.bind_ok, Except.pure_eq_ok]

/-- A configuration that is written back is the same again. If no placeholder opens in its texts, the draft resolves to
it against whatever properties, and merging the draft into a context adds it once more, whether or not it is held
already, when everything that is held for its component is equal to it. -/
theorem written_back (plain : ∀ text ∈ c.texts, ¬ ['{', '{'] <:+: text.toList) :
    (∀ properties, c.written.resolve properties = .ok c) ∧
    ∀ (context : Context) (name : String), (∀ other ∈ context.held, other.key = c.key → other = c) →
      context.merge (.put .empty name c.written) = .ok { context with held := context.held ++ [c] } := by
  refine ⟨Plain.resolve_written plain, fun context name agree => ?_⟩
  have resolved : Context.resolveDrafts context.properties (.put .empty name c.written) = .ok [c] :=
    Except.mapM_eq_ok_iff.mpr (.cons (Plain.resolve_written plain context.properties) .nil)
  have accepts : Context.Accepts context.held [c] :=
    ⟨List.forall_mem_singleton.mpr agree, List.pairwise_singleton ..⟩
  rw [Context.merge, resolved, Except.bind_ok, Context.add_of_accepts accepts]
  rfl

/-- A configuration with blanks, braces and colons in its texts. -/
def adorned : RestConfiguration where
  component := some "netty"
  host := some " \x7bhost\x7d:a\x7d\x7d "
  port := some 65535
  scheme := .https
  apiContextPath := some ""
  bindingMode := .jsonXml
  enableCors := true
  consumerProperties := Dictionary.empty.put "\x7b\x7bkey\x7d\x7d" "\x7b \x7bvalue"

theorem written_back_adorned :
    (∀ text ∈ adorned.texts, ¬ ['{', '{'] <:+: text.toList) ∧
      adorned.written.port = some "65535" ∧ adorned.written.bindingMode = some "json_xml" ∧
      (∀ properties, adorned.written.resolve properties = .ok adorned) ∧
      Context.merge { name := "shared", held := [adorned] } (.put .empty "netty" adorned.written) =
        .ok { name := "shared", held := [adorned, adorned] } := by
  have plain : ∀ text ∈ adorned.texts, ¬ ['{', '{'] <:+: text.toList := by decide +kernel
  obtain ⟨resolves, merges⟩ := written_back plain
  exact ⟨plain, by decide, by decide, resolves, merges _ "netty" (by simp)⟩

end RestConfiguration

end RouteDepot
