import RouteDepot.Dictionary
import RouteDepot.Ledger
import Mathlib.Data.List.Forall2
import Mathlib.Data.List.Induction
import Mathlib.Data.List.Nodup

/-! # What dictionaries and ledgers hold

A value that is put under a key is found there, and nothing else changes. Putting twice under one key is putting the
second value.
-/

namespace RouteDepot

variable {α : Type}

theorem lookup_cons_ite {key name : String} {value : α} {entries : List (String × α)} :
    ((key, value) :: entries).lookup name = if name = key then some value else entries.lookup name := by
  rw [List.lookup_cons]
  by_cases same : name = key
  · simp [same]
  · simp [same, beq_eq_false_iff_ne.mpr same]

/-- What holds for the first value, if there is one, and for the values found behind it holds for all that are found. -/
theorem forall_lookup_cons {P : α → Prop} {key : String} {own : Option α} {entries : List (String × Option α)}
    (first : ∀ value, own = some value → P value)
    (later : ∀ name value, entries.lookup name = some (some value) → P value) :
    ∀ name value, ((key, own) :: entries).lookup name = some (some value) → P value := by
  intro name value found
  rw [lookup_cons_ite] at found
  split at found
  · exact first value (Option.some.inj found)
  · exact later name value found

/-- Under keys that are distinct, what is found is exactly what is listed. -/
theorem lookup_eq_some_iff_mem {entries : List (String × α)} (distinct : (entries.map (·.1)).Nodup) {name : String}
    {value : α} : entries.lookup name = some value ↔ (name, value) ∈ entries := by
  induction entries with
  | nil => simp
  | cons entry later ih =>
    obtain ⟨key, first⟩ := entry
    rw [List.map_cons, List.nodup_cons] at distinct
    rw [lookup_cons_ite, List.mem_cons, Prod.mk.injEq]
    split
    · rename_i same
      subst same
      have absent : (name, value) ∉ later := fun member => distinct.1 (List.mem_map.mpr ⟨_, member, rfl⟩)
      simp [absent, eq_comm]
    · rename_i different
      simp [different, ih distinct.2]

namespace Dictionary

theorem lookup_putEntry {key name : String} {value : α} {entries : List (String × α)}
    (ascending : (entries.map (·.1)).Pairwise (· < ·)) :
    (putEntry key value entries).lookup name = if name = key then some value else entries.lookup name := by
  induction entries with
  | nil => simp [putEntry, lookup_cons_ite]
  | cons entry later ih =>
    obtain ⟨k, v⟩ := entry
    simp only [List.map_cons, List.pairwise_cons] at ascending
    unfold putEntry
    split
    · rw [lookup_cons_ite]
    split
    · rename_i above
      have different : k ≠ key := fun same => String.lt_irrefl key (same ▸ above)
      rw [lookup_cons_ite, ih ascending.2, lookup_cons_ite]
      split
      · rename_i same
        simp [same, different]
      · rfl
    · rename_i notBelow notAbove
      obtain rfl : key = k := String.le_antisymm notAbove notBelow
      rw [lookup_cons_ite, lookup_cons_ite]
      split <;> rfl

theorem get?_put (d : Dictionary α) (key name : String) (value : α) :
    (d.put key value).get? name = if name = key then some value else d.get? name :=
  lookup_putEntry d.ascending

/-- Of several values for a key, a dictionary holds the last. -/
theorem get?_ofList (entries : List (String × α)) (name : String) :
    (ofList entries).get? name = entries.reverse.lookup name := by
  induction entries using List.reverseRecOn with
  | nil => rfl
  | append_singleton entries entry ih =>
    obtain ⟨key, value⟩ := entry
    rw [ofList, List.foldl_append, List.reverse_append]
    simp only [List.foldl_cons, List.foldl_nil, List.reverse_singleton, List.singleton_append]
    rw [get?_put, lookup_cons_ite, ← ih, ofList]

/-- A dictionary that is made of items one after another holds under a key what the last item with this key says. -/
theorem get?_ofList_map_eq_some_iff {ι : Type} {items : List ι} {entry : ι → String × α} {before : ι → ι → Prop}
    [Std.Asymm before] (sorted : items.Pairwise before) {name : String} {value : α} :
    (ofList (items.map entry)).get? name = some value ↔
      ∃ item ∈ items, entry item = (name, value) ∧ ∀ other ∈ items, before item other → (entry other).1 ≠ name := by
  rw [get?_ofList]
  induction items using List.reverseRecOn with
  | nil => simp
  | append_singleton items last ih =>
    obtain ⟨sorted, _, below⟩ := List.pairwise_append.mp sorted
    have below : ∀ item ∈ items, before item last := fun item member => below item member last List.mem_cons_self
    have itself : ¬ before last last := fun circle => Std.Asymm.asymm _ _ circle circle
    rw [List.map_append, List.map_singleton, List.reverse_append, List.reverse_singleton, List.singleton_append,
      lookup_cons_ite]
    split
    · next same =>
      -- The last item hides all the others.
      simp only [Option.some.injEq, List.mem_append, List.mem_singleton]
      constructor
      · rintro rfl
        refine ⟨last, .inr rfl, Prod.ext same.symm rfl, ?_⟩
        rintro other (member | rfl) after
        · exact absurd after (Std.Asymm.asymm _ _ (below other member))
        · exact absurd after itself
      · rintro ⟨item, member | rfl, entered, latest⟩
        · exact absurd same.symm (latest last (.inr rfl) (below item member))
        · rw [entered]
    · next different =>
      rw [ih sorted]
      simp only [List.mem_append, List.mem_singleton]
      constructor
      · rintro ⟨item, member, entered, latest⟩
        refine ⟨item, .inl member, entered, ?_⟩
        rintro other (member | rfl) after
        · exact latest other member after
        · exact Ne.symm different
      · rintro ⟨item, member | rfl, entered, latest⟩
        · exact ⟨item, member, entered, fun other member => latest other (.inl member)⟩
        · exact absurd (congrArg Prod.fst entered).symm different

/-- A dictionary that is made of items holds something under the key of each of them. -/
theorem get?_ofList_isSome {entries : List (String × α)} {entry : String × α} (member : entry ∈ entries) :
    ((ofList entries).get? entry.1).isSome := by
  rw [get?_ofList, List.lookup_isSome_iff]
  exact ⟨entry, List.mem_reverse.mpr member, beq_self_eq_true _⟩

/-- Dictionaries that are made of related values under the same keys hold related values. -/
theorem get?_ofList_related {β : Type} {R : α → β → Prop} {entries : List (String × α)} {others : List (String × β)}
    (related : List.Forall₂ (fun entry other => entry.1 = other.1 ∧ R entry.2 other.2) entries others) (name : String) :
    Option.Rel R ((ofList entries).get? name) ((ofList others).get? name) := by
  rw [get?_ofList, get?_ofList]
  have related := List.rel_reverse related
  generalize entries.reverse = entries, others.reverse = others at related
  induction related with
  | nil => exact .none
  | @cons entry other _ _ first _ ih =>
    obtain ⟨key, value⟩ := entry
    obtain ⟨key', value'⟩ := other
    obtain ⟨rfl, values⟩ : key = key' ∧ R value value' := first
    rw [lookup_cons_ite, lookup_cons_ite]
    split
    · exact .some values
    · exact ih

/-- Under keys that are distinct, a dictionary holds exactly the values that it was made of. -/
theorem get?_ofList_eq_some_iff {entries : List (String × α)} (distinct : (entries.map (·.1)).Nodup) {name : String}
    {value : α} : (ofList entries).get? name = some value ↔ (name, value) ∈ entries := by
  rw [get?_ofList, lookup_eq_some_iff_mem (by rwa [List.map_reverse, List.nodup_reverse]), List.mem_reverse]

theorem nodup_keys (d : Dictionary α) : (d.entries.map (·.1)).Nodup :=
  d.ascending.imp fun below => String.ne_of_lt below

theorem get?_eq_some_iff_mem {d : Dictionary α} {name : String} {value : α} :
    d.get? name = some value ↔ (name, value) ∈ d.entries :=
  lookup_eq_some_iff_mem d.nodup_keys

/-- The entries of a dictionary are among those that it was made of. -/
theorem mem_of_mem_entries_ofList {entries : List (String × α)} {entry : String × α}
    (member : entry ∈ (ofList entries).entries) : entry ∈ entries := by
  have found := get?_eq_some_iff_mem.mpr member
  rw [get?_ofList] at found
  obtain ⟨before, after, split, _⟩ := List.lookup_eq_some_iff.mp found
  rw [← List.mem_reverse, split]
  exact List.mem_append_right _ List.mem_cons_self

/-- Dictionaries that hold the same values are equal. -/
theorem ext_get? {d other : Dictionary α} (same : ∀ name, d.get? name = other.get? name) : d = other := by
  have members : d.entries.Perm other.entries := by
    refine (List.perm_ext_iff_of_nodup d.nodup_keys.of_map other.nodup_keys.of_map).mpr fun (name, value) => ?_
    rw [← get?_eq_some_iff_mem, ← get?_eq_some_iff_mem, same name]
  have sorted (d : Dictionary α) : d.entries.Pairwise fun entry later => entry.1 < later.1 :=
    List.pairwise_map.mp d.ascending
  have entries : d.entries = other.entries := members.eq_of_pairwise
    (fun _ _ _ _ below above => absurd above (String.lt_asymm below)) (sorted d) (sorted other)
  cases d
  cases other
  congr

/-- Entries with distinct keys make the same dictionary in whatever order they are put in. -/
theorem ofList_perm {entries others : List (String × α)} (permuted : entries.Perm others)
    (distinct : (entries.map (·.1)).Nodup) : ofList entries = ofList others := by
  refine ext_get? fun name => Option.ext fun value => ?_
  rw [get?_ofList_eq_some_iff distinct, get?_ofList_eq_some_iff ((permuted.map _).nodup_iff.mp distinct),
    permuted.mem_iff]

end Dictionary

/-- One more name is new, or it changes nothing in the order of first use. -/
theorem eraseDups_concat (names : List String) (name : String) :
    (names ++ [name]).eraseDups = if name ∈ names then names.eraseDups else names.eraseDups ++ [name] := by
  rw [List.eraseDups_append]
  by_cases used : name ∈ names
  · simp [used, List.removeAll]
  · simp [used, List.removeAll, List.eraseDups_cons]

namespace Ledger

theorem lookup_putEntry (key name : String) (value : α) (entries : List (String × α)) :
    (putEntry key value entries).lookup name = if name = key then some value else entries.lookup name := by
  induction entries with
  | nil => simp [putEntry, lookup_cons_ite]
  | cons entry later ih =>
    obtain ⟨k, v⟩ := entry
    unfold putEntry
    split
    · rename_i same
      rw [lookup_cons_ite, lookup_cons_ite, same]
      split <;> rfl
    · rename_i different
      rw [lookup_cons_ite, ih, lookup_cons_ite]
      split
      · rename_i same
        simp [same, different]
      · rfl

theorem get?_put (l : Ledger α) (key name : String) (value : α) :
    (l.put key value).get? name = if name = key then some value else l.get? name :=
  lookup_putEntry key name value l.entries

theorem get?_isSome {l : Ledger α} {name : String} : (l.get? name).isSome ↔ name ∈ l.keys := by
  rw [get?, List.lookup_isSome_iff, keys, List.mem_map]
  simp only [beq_iff_eq, eq_comm (a := name)]

/-- One value put under several texts is found under each of them. -/
theorem get?_putAll (l : Ledger α) (names : List String) (value : α) (name : String) :
    (names.foldl (fun l name => l.put name value) l).get? name = if name ∈ names then some value else l.get? name := by
  induction names generalizing l with
  | nil => simp
  | cons first names ih =>
    rw [List.foldl_cons, ih, get?_put]
    by_cases later : name ∈ names <;> simp [later]

/-- The texts that a value is put under come behind those that were used before, each when it is new. -/
theorem keys_putAll {l : Ledger α} {used : List String} (keys : l.keys = used.eraseDups) (names : List String)
    (value : α) : (names.foldl (fun l name => l.put name value) l).keys = (used ++ names).eraseDups := by
  induction names generalizing l used with
  | nil => rw [List.foldl_nil, keys, List.append_nil]
  | cons first names ih =>
    have step : (l.put first value).keys = (used ++ [first]).eraseDups := by
      rw [keys_put, keys, eraseDups_concat]
      simp only [List.mem_eraseDups]
    rw [List.foldl_cons, ih step, List.append_assoc, List.singleton_append]

theorem putEntry_putEntry (key : String) (first second : α) (entries : List (String × α)) :
    putEntry key second (putEntry key first entries) = putEntry key second entries := by
  induction entries with
  | nil => simp [putEntry]
  | cons entry later ih =>
    obtain ⟨k, v⟩ := entry
    by_cases same : k = key
    · simp [putEntry, same]
    · simp [putEntry, same, ih]

@[simp] theorem put_put (l : Ledger α) (key : String) (first second : α) :
    (l.put key first).put key second = l.put key second := by
  simp only [put, putEntry_putEntry]

end Ledger

end RouteDepot
