import RouteDepot.Proofs.Lookup
import RouteDepot.Proofs.Results
import RouteDepot.RouteClass.Definition

/-! # Edits of REST configurations

A call on a REST configuration comes to an edit: a text for an option, or a text for a free property of one of the
groups. What it comes to does not depend on the draft that it is made to. After a sequence of edits every option has
the last text that it was given, and so has every free property; no edit touches anything else.
-/

namespace RouteDepot.RouteClass

open Operand (Reach)

/-! ### Parts of a draft -/

/-- The text of an option. -/
def RestOption.get (draft : RestConfigurationDraft) : RestOption → Option String
  | component => draft.component
  | host => draft.host
  | port => draft.port
  | scheme => draft.scheme
  | contextPath => draft.contextPath
  | apiContextPath => draft.apiContextPath
  | bindingMode => draft.bindingMode
  | enableCors => draft.enableCors

/-- The free properties of a group. -/
def RestPropertyGroup.get (draft : RestConfigurationDraft) : RestPropertyGroup → Dictionary String
  | component => draft.componentProperties
  | endpoint => draft.endpointProperties
  | consumer => draft.consumerProperties
  | dataFormat => draft.dataFormatProperties

theorem RestOption.get_set (option other : RestOption) (draft : RestConfigurationDraft) (text : String) :
    option.get (other.set draft text) = if other = option then some text else option.get draft := by
  cases option <;> cases other <;> rfl

theorem RestOption.get_setProperty (option : RestOption) (group : RestPropertyGroup) (draft : RestConfigurationDraft)
    (name text : String) : option.get (group.set draft name text) = option.get draft := by
  cases option <;> cases group <;> rfl

theorem RestPropertyGroup.get_set (group other : RestPropertyGroup) (draft : RestConfigurationDraft)
    (name text : String) :
    group.get (other.set draft name text) = if other = group then (group.get draft).put name text
      else group.get draft := by
  cases group <;> cases other <;> rfl

theorem RestPropertyGroup.get_setOption (group : RestPropertyGroup) (option : RestOption)
    (draft : RestConfigurationDraft) (text : String) : group.get (option.set draft text) = group.get draft := by
  cases group <;> cases option <;> rfl

/-- A fresh draft knows its component, unless that is the default one. -/
theorem RestOption.get_freshDraft (option : RestOption) (key : String) :
    option.get (freshDraft key) = if option = .component ∧ key ≠ "" then some key else none := by
  cases option with
  | component =>
    by_cases empty : key = ""
    · simp [get, freshDraft, empty]
    · simp [get, freshDraft, empty]
  | host | port | scheme | contextPath | apiContextPath | bindingMode | enableCors => rfl

theorem RestPropertyGroup.get_freshDraft (group : RestPropertyGroup) (key : String) :
    group.get (freshDraft key) = .empty := by
  cases group <;> rfl

/-! ### Edits -/

/-- What a call does to a REST configuration. -/
inductive Edit where
  | set (option : RestOption) (text : String)
  | property (group : RestPropertyGroup) (name text : String)

namespace Edit

/-- The draft after an edit. -/
def apply (draft : RestConfigurationDraft) : Edit → RestConfigurationDraft
  | set option text => option.set draft text
  | property group name text => group.set draft name text

/-- The text that an edit gives to an option. -/
def text? (option : RestOption) : Edit → Option String
  | set other text => if other = option then some text else none
  | property _ _ _ => none

/-- The text that an edit gives to a free property. -/
def propertyText? (group : RestPropertyGroup) (name : String) : Edit → Option String
  | set _ _ => none
  | property other key text => if other = group ∧ key = name then some text else none

theorem get_apply (option : RestOption) (draft : RestConfigurationDraft) (edit : Edit) :
    option.get (edit.apply draft) = (edit.text? option).or (option.get draft) := by
  cases edit with
  | set other text =>
    rw [apply, RestOption.get_set, text?]
    split <;> rfl
  | property group name text => exact option.get_setProperty group draft name text

theorem get?_apply (group : RestPropertyGroup) (name : String) (draft : RestConfigurationDraft) (edit : Edit) :
    (group.get (edit.apply draft)).get? name =
      (edit.propertyText? group name).or ((group.get draft).get? name) := by
  cases edit with
  | set option text => rw [apply, RestPropertyGroup.get_setOption]; rfl
  | property other key text =>
    rw [apply, RestPropertyGroup.get_set, propertyText?]
    by_cases sameGroup : other = group
    · by_cases sameName : key = name
      · simp [sameGroup, sameName, Dictionary.get?_put]
      · simp [sameGroup, sameName, Dictionary.get?_put, Ne.symm sameName]
    · simp [sameGroup]

/-- The last of several texts replaces all the others. -/
theorem last_or {α β : Type} (text? : α → Option β) (first : α) (later : List α) (before : Option β) :
    ((first :: later).filterMap text?).getLast?.or before =
      (later.filterMap text?).getLast?.or ((text? first).or before) := by
  cases given : text? first with
  | none => simp [given]
  | some text =>
    rw [List.filterMap_cons_some given, List.getLast?_cons]
    cases (later.filterMap text?).getLast? <;> rfl

/-- After edits an option has the last text that it was given. -/
theorem get_foldl_apply (option : RestOption) (edits : List Edit) (draft : RestConfigurationDraft) :
    option.get (edits.foldl apply draft) = (edits.filterMap (text? option)).getLast?.or (option.get draft) := by
  induction edits generalizing draft with
  | nil => rfl
  | cons edit later ih => rw [List.foldl_cons, ih, get_apply, last_or]

/-- After edits a free property has the last text that it was given. -/
theorem get?_foldl_apply (group : RestPropertyGroup) (name : String) (edits : List Edit)
    (draft : RestConfigurationDraft) :
    (group.get (edits.foldl apply draft)).get? name =
      (edits.filterMap (propertyText? group name)).getLast?.or ((group.get draft).get? name) := by
  induction edits generalizing draft with
  | nil => rfl
  | cons edit later ih => rw [List.foldl_cons, ih, get?_apply, last_or]

end Edit

/-! ### Calls -/

/-- The edit that a call comes to. -/
def ConfigurationCall.edit (reach : Reach) : ConfigurationCall → Except ConfigureError Edit
  | set option value => .set option <$> value.evalText reach
  | property group key value => do return .property group (← key.evalText reach) (← value.evalText reach)

theorem ConfigurationCall.apply_eq (reach : Reach) (draft : RestConfigurationDraft) (call : ConfigurationCall) :
    call.apply reach draft = (·.apply draft) <$> call.edit reach := by
  cases call with
  | set option value =>
    simp only [apply, edit]
    cases value.evalText reach <;> rfl
  | property group key value =>
    simp only [apply, edit]
    cases key.evalText reach with
    | error fault => rfl
    | ok name => cases value.evalText reach <;> rfl

/-- Calls that come to edits make these edits, one after another. -/
theorem applyConfigurationCalls_of_edits {reach : Reach} {calls : List ConfigurationCall} {edits : List Edit}
    (evaluated : List.Forall₂ (fun call edit => call.edit reach = .ok edit) calls edits)
    (draft : RestConfigurationDraft) :
    applyConfigurationCalls reach draft calls = (edits.foldl Edit.apply draft, .ok ()) := by
  induction evaluated generalizing draft with
  | nil => rfl
  | cons first _ ih =>
    rw [applyConfigurationCalls, ConfigurationCall.apply_eq, first, List.foldl_cons]
    exact ih _

/-- Calls that all succeed come to edits. -/
theorem exists_edits_of_applyConfigurationCalls {reach : Reach} {calls : List ConfigurationCall}
    {draft : RestConfigurationDraft} (success : (applyConfigurationCalls reach draft calls).2 = .ok ()) :
    ∃ edits, List.Forall₂ (fun call edit => ConfigurationCall.edit reach call = .ok edit) calls edits := by
  induction calls generalizing draft with
  | nil => exact ⟨[], .nil⟩
  | cons call later ih =>
    rw [applyConfigurationCalls, ConfigurationCall.apply_eq] at success
    cases first : call.edit reach with
    | error fault =>
      rw [first] at success
      cases success
    | ok edit =>
      rw [first] at success
      obtain ⟨edits, rest⟩ := ih success
      exact ⟨edit :: edits, .cons first rest⟩

end RouteDepot.RouteClass
