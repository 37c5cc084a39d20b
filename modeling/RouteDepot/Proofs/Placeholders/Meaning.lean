import RouteDepot.Context.Merge
import RouteDepot.Proofs.Configuration.Edits

/-! # What drafts mean

Against the properties of a context, a draft means what its texts resolve to. Drafts that mean the same describe the
same configuration, fail to do so for the same reason, and can be edited in step with each other.
-/

namespace RouteDepot

variable {α β ε : Type}

/-! ### Changing all values -/

namespace Dictionary

/-- The dictionary with every value changed. -/
def map (f : α → β) (d : Dictionary α) : Dictionary β :=
  ⟨d.entries.map fun (key, value) => (key, f value), by simpa [Function.comp_def] using d.ascending⟩

theorem map_putEntry (f : α → β) (key : String) (value : α) (entries : List (String × α)) :
    (putEntry key value entries).map (fun (key, value) => (key, f value)) =
      putEntry key (f value) (entries.map fun (key, value) => (key, f value)) := by
  induction entries with
  | nil => rfl
  | cons entry later ih =>
    obtain ⟨k, v⟩ := entry
    simp only [putEntry, List.map_cons]
    split
    · rfl
    · split
      · rw [List.map_cons, ih]
      · rfl

@[simp] theorem map_put (f : α → β) (d : Dictionary α) (key : String) (value : α) :
    (d.put key value).map f = (d.map f).put key (f value) := by
  simp only [map, put, map_putEntry]

theorem traverseEntries_map (f : α → Except ε β) (entries : List (String × α)) :
    traverseEntries id (entries.map fun (key, value) => (key, f value)) = traverseEntries f entries := by
  induction entries with
  | nil => rfl
  | cons entry later ih =>
    obtain ⟨key, value⟩ := entry
    simp only [List.map_cons, traverseEntries, ih, id]

/-- What becomes of a dictionary depends on what becomes of its values only. -/
theorem traverse_map (f : α → Except ε β) (d : Dictionary α) : (d.map f).traverse id = d.traverse f := by
  have entries : traverseEntries id (d.map f).entries = traverseEntries f d.entries := traverseEntries_map f d.entries
  unfold traverse
  split <;> split <;> simp_all

end Dictionary

namespace Ledger

/-- The ledger with every value changed. -/
def map (f : α → β) (l : Ledger α) : Ledger β :=
  ⟨l.entries.map fun (key, value) => (key, f value), by simpa [Function.comp_def] using l.unique⟩

theorem map_putEntry (f : α → β) (key : String) (value : α) (entries : List (String × α)) :
    (putEntry key value entries).map (fun (key, value) => (key, f value)) =
      putEntry key (f value) (entries.map fun (key, value) => (key, f value)) := by
  induction entries with
  | nil => rfl
  | cons entry later ih =>
    obtain ⟨k, v⟩ := entry
    simp only [putEntry, List.map_cons]
    split
    · rfl
    · rw [List.map_cons, ih]

@[simp] theorem map_put (f : α → β) (l : Ledger α) (key : String) (value : α) :
    (l.put key value).map f = (l.map f).put key (f value) := by
  simp only [map, put, map_putEntry]

@[simp] theorem get?_map (f : α → β) (l : Ledger α) (key : String) : (l.map f).get? key = (l.get? key).map f := by
  obtain ⟨entries, _⟩ := l
  simp only [get?, map]
  clear * -
  induction entries with
  | nil => rfl
  | cons entry later ih =>
    rw [List.map_cons, lookup_cons_ite, lookup_cons_ite, ih]
    split <;> rfl

end Ledger

namespace RouteClass

/-! ### Drafts -/

/-- What the options and the free properties of a draft resolve to. -/
@[ext] structure Meaning where
  option : RestOption → Option (Except ContextError String)
  group : RestPropertyGroup → Dictionary (Except ContextError String)

variable {properties : Properties}

/-- What a draft means against properties. -/
def meaning (properties : Properties) (d : RestConfigurationDraft) : Meaning where
  option o := (o.get d).map properties.resolve
  group g := (g.get d).map properties.resolve

/-- Two edits that mean the same against properties. -/
inductive Edit.SameMeaning (properties : Properties) : Edit → Edit → Prop
  | set (option : RestOption) {text text' : String} (same : properties.resolve text = properties.resolve text') :
      SameMeaning properties (.set option text) (.set option text')
  | property (group : RestPropertyGroup) (name : String) {text text' : String}
      (same : properties.resolve text = properties.resolve text') :
      SameMeaning properties (.property group name text) (.property group name text')

theorem Edit.SameMeaning.refl (edit : Edit) : edit.SameMeaning properties edit := by
  cases edit with
  | set option text => exact .set option rfl
  | property group name text => exact .property group name rfl

/-- Drafts that mean the same are edited in step. -/
theorem Edit.SameMeaning.apply {edit edit' : Edit} (same : edit.SameMeaning properties edit')
    {d d' : RestConfigurationDraft} (drafts : meaning properties d = meaning properties d') :
    meaning properties (edit.apply d) = meaning properties (edit'.apply d') := by
  have options (option : RestOption) := congrFun (congrArg Meaning.option drafts) option
  have groups (group : RestPropertyGroup) := congrFun (congrArg Meaning.group drafts) group
  simp only [meaning] at options groups
  cases same with
  | set other same =>
    refine Meaning.ext (funext fun option => ?_) (funext fun group => ?_)
    · simp only [meaning, Edit.apply, RestOption.get_set]
      split
      · exact congrArg some same
      · exact options option
    · simpa only [meaning, Edit.apply, RestPropertyGroup.get_setOption] using groups group
  | property other name same =>
    refine Meaning.ext (funext fun option => ?_) (funext fun group => ?_)
    · simpa only [meaning, Edit.apply, RestOption.get_setProperty] using options option
    · simp only [meaning, Edit.apply, RestPropertyGroup.get_set]
      split
      · rw [Dictionary.map_put, Dictionary.map_put, groups group, same]
      · exact groups group

theorem option_eq_of_map {text text' : Option String} (same : text.map properties.resolve = text'.map properties.resolve)
    (default : α) (read : String → Except ContextError α) :
    RestConfigurationDraft.option properties text default read =
      RestConfigurationDraft.option properties text' default read := by
  cases text with
  | none =>
    cases text' with
    | none => rfl
    | some _ => cases same
  | some text =>
    cases text' with
    | none => cases same
    | some text' =>
      simp only [RestConfigurationDraft.option, Option.some.inj same]

/-- Drafts that mean the same describe the same configuration, or fail to for the same reason. -/
theorem resolve_eq_of_meaning_eq {d d' : RestConfigurationDraft}
    (drafts : meaning properties d = meaning properties d') : d.resolve properties = d'.resolve properties := by
  have options (option : RestOption) : (option.get d).map properties.resolve = (option.get d').map properties.resolve :=
    congrFun (congrArg Meaning.option drafts) option
  have groups (group : RestPropertyGroup) :
      (group.get d).traverse properties.resolve = (group.get d').traverse properties.resolve := by
    rw [← Dictionary.traverse_map properties.resolve, ← Dictionary.traverse_map properties.resolve]
    exact congrArg (Dictionary.traverse id) (congrFun (congrArg Meaning.group drafts) group)
  simp only [RestConfigurationDraft.resolve, RestConfigurationDraft.textOption,
    option_eq_of_map (show d.port.map _ = d'.port.map _ from options .port),
    option_eq_of_map (show d.scheme.map _ = d'.scheme.map _ from options .scheme),
    option_eq_of_map (show d.bindingMode.map _ = d'.bindingMode.map _ from options .bindingMode),
    option_eq_of_map (show d.enableCors.map _ = d'.enableCors.map _ from options .enableCors),
    option_eq_of_map (show d.component.map _ = d'.component.map _ from options .component),
    option_eq_of_map (show d.host.map _ = d'.host.map _ from options .host),
    option_eq_of_map (show d.contextPath.map _ = d'.contextPath.map _ from options .contextPath),
    option_eq_of_map (show d.apiContextPath.map _ = d'.apiContextPath.map _ from options .apiContextPath),
    show d.componentProperties.traverse _ = d'.componentProperties.traverse _ from groups .component,
    show d.endpointProperties.traverse _ = d'.endpointProperties.traverse _ from groups .endpoint,
    show d.consumerProperties.traverse _ = d'.consumerProperties.traverse _ from groups .consumer,
    show d.dataFormatProperties.traverse _ = d'.dataFormatProperties.traverse _ from groups .dataFormat]

theorem mapM_resolve_eq {entries entries' : List (String × RestConfigurationDraft)}
    (same : entries.map (fun (key, draft) => (key, meaning properties draft)) =
      entries'.map fun (key, draft) => (key, meaning properties draft)) :
    entries.mapM (fun (_, draft) => draft.resolve properties) =
      entries'.mapM fun (_, draft) => draft.resolve properties := by
  induction entries generalizing entries' with
  | nil =>
    obtain rfl := List.map_eq_nil_iff.mp same.symm
    rfl
  | cons entry later ih =>
    cases entries' with
    | nil => cases same
    | cons entry' later' =>
      obtain ⟨first, rest⟩ := List.cons.inj same
      have resolved : entry.2.resolve properties = entry'.2.resolve properties :=
        resolve_eq_of_meaning_eq (Prod.mk.inj first).2
      simp only [List.mapM_cons, ih rest, resolved]

/-- Drafts that mean the same are merged with the same outcome. -/
theorem merge_eq_of_map_eq {drafts drafts' : Ledger RestConfigurationDraft} (context : Context)
    (same : drafts.map (meaning context.properties) = drafts'.map (meaning context.properties)) :
    context.merge drafts = context.merge drafts' := by
  have entries := mapM_resolve_eq (congrArg Ledger.entries same)
  simp only [Context.merge, Context.resolveDrafts, entries]

end RouteClass

end RouteDepot
