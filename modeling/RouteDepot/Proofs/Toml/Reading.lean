import RouteDepot.Proofs.Lookup
import RouteDepot.Proofs.Toml.Leaves

/-! # Tables that are read have their keys in order

A table that a configuration text describes has its keys in ascending order, and so have the tables in it. Readers
yield scalars, arrays and tables of such; headings and dotted keys put them together, and keep it so that no table
stands where a scalar does; and completing a table sorts its keys.
-/

namespace RouteDepot

/-! ### What readers yield -/

namespace Text.Reader

variable {α β : Type} {means : α → Prop}

/-- A reader yields nothing but values with a given property. -/
def Yields (r : Reader α) (means : α → Prop) : Prop := ∀ cs a rest, r.run cs = some (a, rest) → means a

namespace Yields

theorem mono {r : Reader α} {meant : α → Prop} (yields : r.Yields meant) (implies : ∀ a, meant a → means a) :
    r.Yields means :=
  fun cs a rest ran => implies a (yields cs a rest ran)

theorem pure {a : α} (holds : means a) : Yields (pure a) means := by
  intro cs b rest ran
  obtain rfl := (Prod.mk.inj (Option.some.inj ran)).1
  exact holds

theorem bind {first : Reader β} {next : β → Reader α} {meant : β → Prop} (yields : first.Yields meant)
    (later : ∀ b, meant b → (next b).Yields means) : (first >>= next).Yields means := by
  intro cs a rest ran
  rw [StateT.run_bind] at ran
  obtain ⟨⟨b, middle⟩, ranFirst, ran⟩ := Option.bind_eq_some_iff.mp ran
  exact later b (yields cs b middle ranFirst) middle a rest ran

/-- What comes first does not matter. -/
theorem after {first : Reader β} {next : β → Reader α} (later : ∀ b, (next b).Yields means) :
    (first >>= next).Yields means := by
  have yields : first.Yields fun _ => True := fun _ _ _ _ => trivial
  exact yields.bind fun b _ => later b

theorem map {r : Reader β} {f : β → α} (yields : r.Yields fun b => means (f b)) : Yields (f <$> r) means := by
  rw [map_eq_pure_bind]
  exact yields.bind fun _ holds => .pure holds

theorem lift {result : Option α} (holds : ∀ a, result = some a → means a) : Yields (StateT.lift result) means := by
  intro cs a rest ran
  obtain ⟨b, found, same⟩ := Option.bind_eq_some_iff.mp ran
  obtain rfl := (Prod.mk.inj (Option.some.inj same)).1
  exact holds b found

/-- What is repeated yields the items of its turns. -/
theorem many {turn : Reader (List α × Bool)} (yields : turn.Yields fun taken => ∀ item ∈ taken.1, means item) :
    Yields (many turn) fun items => ∀ item ∈ items, means item := by
  intro cs
  change ∀ items rest, Reader.many turn cs = some (items, rest) → _
  fun_induction Reader.many turn cs with
  | case1 => nofun
  | case2 cs items rest ran =>
    rintro _ _ same
    cases same
    exact yields cs _ _ ran
  | case3 cs items rest ran shorter ih =>
    intro all final same
    obtain ⟨⟨later, final'⟩, ranLater, same⟩ := Option.map_eq_some_iff.mp same
    cases same
    exact List.forall_mem_append.mpr ⟨yields cs _ _ ran, ih _ _ ranLater⟩
  | case4 => nofun

end Yields

end Text.Reader

namespace Toml

open Text (Reader)
open Text.Reader (Yields)

/-! ### Scalars -/

theorem Scalar.isLeaf_of_integer? {negative : Bool} {magnitude : Nat} {value : Value}
    (read : Scalar.integer? negative magnitude = some value) : value.isLeaf := by
  unfold Scalar.integer? at read
  extract_lets number at read
  obtain ⟨_, same⟩ := Option.ite_none_right_eq_some.mp read
  obtain rfl := Option.some.inj same
  rfl

theorem Scalar.isLeaf_of_real? {negative : Bool} {digits : List Char} {power : Int} {value : Value}
    (read : Scalar.real? negative digits power = some value) : value.isLeaf := by
  unfold Scalar.real? at read
  split at read
  · cases read
  · obtain rfl := Option.some.inj read
    rfl

theorem Scalar.baseInteger_yields (base : Nat) : (Scalar.baseInteger base).Yields fun value => value.isLeaf :=
  .after fun _ => .lift fun _ => isLeaf_of_integer?

theorem Scalar.number_yields : Scalar.number.Yields fun value => value.isLeaf := by
  refine .after fun negative => .after fun ahead => ?_
  split
  · exact .after fun _ => .pure rfl
  · exact .after fun _ => .pure rfl
  · -- The digits behind a point and the exponent may be there or not.
    refine .after fun whole => .after fun point => ?_
    split <;> refine .after fun fraction => .after fun power => ?_
    all_goals
      split
      · exact .lift fun _ => isLeaf_of_integer?
      · exact .lift fun _ => isLeaf_of_real?

/-- A scalar is no table. -/
theorem Scalar.read_yields : Scalar.read.Yields fun value => value.isLeaf := by
  refine .after fun ahead => ?_
  split
  · exact .after fun _ => .after fun _ => .pure rfl
  · exact .after fun _ => .after fun _ => .pure rfl
  · exact .after fun _ => .pure rfl
  · exact .after fun _ => .pure rfl
  · exact .after fun _ => baseInteger_yields 16
  · exact .after fun _ => baseInteger_yields 8
  · exact .after fun _ => baseInteger_yields 2
  · split
    · exact .after fun _ => .pure rfl
    · exact number_yields

/-! ### Tables under construction -/

/-- Where a scalar stands in a table under construction, it is no table. What is in an array does not matter. -/
inductive Item.Sound : Item → Prop
  | value {value : Value} : value.isLeaf → Sound (.value value)
  | arr (items : List Item) : Sound (.arr items)
  | table (origin : Origin) {fields : List (String × Item)} : (∀ field ∈ fields, Sound field.2) →
      Sound (.table origin fields)
  | tables (earlier : List (List (String × Item))) (last : List (String × Item)) : Sound (.tables earlier last)

namespace Fields

/-- All items of a table under construction are sound. -/
def Sound (fields : Fields) : Prop := ∀ field ∈ fields, field.2.Sound

theorem Sound.nil : Sound [] := nofun

theorem Sound.of_lookup {fields : Fields} {key : String} {item : Item} (sound : fields.Sound)
    (found : fields.lookup key = some item) : item.Sound := by
  obtain ⟨before, after, rfl, _⟩ := List.lookup_eq_some_iff.mp found
  exact sound (key, item) (by simp)

theorem Sound.concat {fields : Fields} {key : String} {item : Item} (sound : fields.Sound) (new : item.Sound) :
    Sound (fields ++ [(key, item)]) :=
  List.forall_mem_append.mpr ⟨sound, List.forall_mem_singleton.mpr new⟩

theorem Sound.replace {fields : Fields} {key : String} {item : Item} (sound : fields.Sound) (new : item.Sound) :
    (fields.replace key item).Sound := by
  intro field member
  obtain ⟨⟨k, old⟩, listed, rfl⟩ := List.mem_map.mp member
  by_cases same : k = key
  · simpa [same] using new
  · simpa [same] using sound _ listed

theorem Sound.remove {fields : Fields} (sound : fields.Sound) (key : String) : (fields.remove key).Sound :=
  fun field member => sound field (List.mem_filter.mp member).1

theorem Sound.add {fields after : Fields} {key : String} {item : Item} (sound : fields.Sound) (new : item.Sound)
    (added : fields.add key item = some after) : after.Sound := by
  unfold Fields.add at added
  split at added
  · cases added
  · obtain rfl := Option.some.inj added
    exact sound.concat new

/-- A change that keeps a table sound does so wherever it is made. -/
theorem Sound.alter {isDotted : Bool} {change : Origin → Fields → Option Fields}
    (keeps : ∀ origin fields after, change origin fields = some after → fields.Sound → after.Sound)
    {path : List String} {origin : Origin} {fields after : Fields} (sound : fields.Sound)
    (altered : fields.alter isDotted change path origin = some after) : after.Sound := by
  -- The path ends here, or its first key is new, or the key leads to a table or to the last of several.
  fun_induction Fields.alter isDotted change path origin fields generalizing after with
  | case1 origin fields => exact keeps origin fields after altered sound
  | case2 =>
    rename_i ih
    obtain ⟨inner, changed, same⟩ := Option.bind_eq_some_iff.mp altered
    obtain rfl := Option.some.inj same
    exact sound.concat (.table _ (ih .nil changed))
  | case6 key path _ fields _ inner found _ ih =>
    obtain ⟨after, changed, same⟩ := Option.bind_eq_some_iff.mp altered
    obtain rfl := Option.some.inj same
    cases sound.of_lookup found with
    | table _ inside => exact sound.replace (.table _ (ih inside changed))
  | case7 key path _ fields earlier last =>
    obtain ⟨after, _, same⟩ := Option.bind_eq_some_iff.mp altered
    obtain rfl := Option.some.inj same
    exact sound.replace (.tables earlier after)
  | case3 | case4 | case5 => cases altered

theorem Sound.assign {fields after : Fields} {path : List String} {key : String} {item : Item} (sound : fields.Sound)
    (new : item.Sound) (assigned : fields.assign path key item = some after) : after.Sound := by
  unfold Fields.assign at assigned
  split at assigned
  · exact sound.add new assigned
  · refine sound.alter (fun origin inner after changed sound => ?_) assigned
    obtain ⟨_, added⟩ := Option.ite_none_right_eq_some.mp changed
    exact sound.add new added

theorem Sound.assignAll {fields after : Fields} {assignments : List Assignment} (sound : fields.Sound)
    (new : ∀ a ∈ assignments, a.value.Sound) (assigned : fields.assignAll assignments = some after) : after.Sound := by
  unfold Fields.assignAll at assigned
  induction assignments generalizing fields with
  | nil =>
    obtain rfl := Option.some.inj assigned
    exact sound
  | cons a later ih =>
    rw [List.foldlM_cons] at assigned
    obtain ⟨next, first, rest⟩ := Option.bind_eq_some_iff.mp assigned
    obtain ⟨new, newLater⟩ := List.forall_mem_cons.mp new
    exact ih (sound.assign new first) newLater rest

theorem Sound.addSection {fields after : Fields} {heading : Heading} {assignments : List Assignment}
    (sound : fields.Sound) (new : ∀ a ∈ assignments, a.value.Sound)
    (added : fields.addSection heading assignments = some after) : after.Sound := by
  cases heading with
  | table place =>
    refine sound.alter (fun _ parent after changed sound => ?_) added
    split at changed
    · obtain ⟨inner, filled, added⟩ := Option.bind_eq_some_iff.mp changed
      exact sound.add (.table _ (Sound.nil.assignAll new filled)) added
    · next inner found =>
      obtain ⟨after, filled, added⟩ := Option.bind_eq_some_iff.mp changed
      cases sound.of_lookup found with
      | table _ inside => exact (sound.remove _).add (.table _ (Sound.assignAll inside new filled)) added
    · cases changed
  | another place =>
    refine sound.alter (fun _ parent after changed sound => ?_) added
    split at changed
    · obtain ⟨inner, _, added⟩ := Option.bind_eq_some_iff.mp changed
      exact sound.add (.tables [] inner) added
    · obtain ⟨inner, _, same⟩ := Option.bind_eq_some_iff.mp changed
      obtain rfl := Option.some.inj same
      exact sound.replace (.tables _ inner)
    · cases changed

end Fields

/-! ### Values and lines -/

section Values

variable {value : Reader Item} (yields : value.Yields Item.Sound)
include yields

theorem assignment_yields : (assignment value).Yields fun a => a.value.Sound := by
  refine .after fun place => .after fun _ => .after fun _ => ?_
  exact yields.bind fun _ sound => .pure sound

theorem fieldPart_yields : (fieldPart value).Yields fun taken => ∀ a ∈ taken.1, a.value.Sound := by
  refine (assignment_yields yields).bind fun a sound => .after fun _ => .after fun more => ?_
  split
  · exact .pure (List.forall_mem_singleton.mpr sound)
  · exact .after fun _ => .pure (List.forall_mem_singleton.mpr sound)

theorem tableInside_yields : (tableInside value).Yields Item.Sound := by
  have filled (assignments : List Assignment) (sound : ∀ a ∈ assignments, a.value.Sound) :
      Yields (StateT.lift (do return .table .inline (← Fields.assignAll [] assignments)) : Reader Item) Item.Sound := by
    refine .lift fun item made => ?_
    obtain ⟨fields, assigned, same⟩ := Option.bind_eq_some_iff.mp made
    obtain rfl := Option.some.inj same
    exact .table _ (Fields.Sound.nil.assignAll sound assigned)
  refine .after fun _ => .after fun closed => ?_
  split
  · exact .bind (.pure (List.forall_mem_nil _)) filled
  · exact (Yields.many (fieldPart_yields yields)).bind filled

end Values

theorem readValue_yields (room : Nat) : (readValue room).Yields Item.Sound := by
  have scalar : Yields (.value <$> Scalar.read) Item.Sound := .map (Scalar.read_yields.mono fun _ => .value)
  induction room with
  | zero => exact scalar
  | succ room ih =>
    refine .after fun ahead => ?_
    split
    · exact .after fun _ => .after fun items => .pure (.arr items)
    · exact .after fun _ => tableInside_yields ih
    · exact scalar

/-- The item that a statement sets is sound. -/
def Statement.Sound : Statement → Prop
  | .heading _ => True
  | .assignment a => a.value.Sound

theorem line_yields : line.Yields fun taken => ∀ statement ∈ taken.1, statement.Sound := by
  refine .after fun _ => .after fun ahead => ?_
  split
  · exact .pure (List.forall_mem_nil _)
  · exact .after fun _ => .after fun _ => .after fun _ => .pure (List.forall_mem_singleton.mpr trivial)
  · split
    · exact .after fun _ => .pure (List.forall_mem_nil _)
    · refine (assignment_yields (readValue_yields _)).bind fun a sound => .after fun _ => ?_
      exact .pure (List.forall_mem_singleton.mpr sound)

/-! ### Documents -/

theorem sections_sound {statements : List Statement} (sound : ∀ statement ∈ statements, statement.Sound) :
    (∀ a ∈ (sections statements).1, a.value.Sound) ∧
      ∀ part ∈ (sections statements).2, ∀ a ∈ part.2, a.value.Sound := by
  fun_induction sections statements with
  | case1 => exact ⟨nofun, nofun⟩
  | case2 a later front rest split ih =>
    obtain ⟨first, sound⟩ := List.forall_mem_cons.mp sound
    rw [split] at ih
    exact ⟨List.forall_mem_cons.mpr ⟨first, (ih sound).1⟩, (ih sound).2⟩
  | case3 heading later front rest split ih =>
    obtain ⟨_, sound⟩ := List.forall_mem_cons.mp sound
    rw [split] at ih
    exact ⟨nofun, List.forall_mem_cons.mpr (ih sound)⟩

theorem Fields.sound_of_ofStatements? {statements : List Statement} {fields : Fields}
    (sound : ∀ statement ∈ statements, statement.Sound) (built : Fields.ofStatements? statements = some fields) :
    fields.Sound := by
  obtain ⟨soundFront, soundRest⟩ := sections_sound sound
  unfold Fields.ofStatements? at built
  obtain ⟨start, assigned, built⟩ := Option.bind_eq_some_iff.mp built
  have begun : start.Sound := Fields.Sound.nil.assignAll soundFront assigned
  clear assigned
  generalize (sections statements).2 = parts at soundRest built
  induction parts generalizing start with
  | nil =>
    obtain rfl := Option.some.inj built
    exact begun
  | cons part later ih =>
    rw [List.foldlM_cons] at built
    obtain ⟨next, added, built⟩ := Option.bind_eq_some_iff.mp built
    obtain ⟨first, soundRest⟩ := List.forall_mem_cons.mp soundRest
    exact ih next (begun.addSection first added) soundRest built

/-! ### Complete tables -/

theorem isLeaf_of_moment? {item : Item} {value : Value} (read : item.moment? = some value) : value.isLeaf := by
  unfold Item.moment? at read
  split at read
  · obtain ⟨_, _, rfl⟩ := Option.map_eq_some_iff.mp read
    rfl
  · cases read

theorem exists_of_completeFields? {fields : Fields} {values : List (String × Value)}
    (completed : completeFields? fields = some values) {key : String} {value : Value} (member : (key, value) ∈ values) :
    ∃ field ∈ fields, field.2.complete? = some value := by
  induction fields generalizing values with
  | nil =>
    obtain rfl := Option.some.inj completed
    cases member
  | cons field fields ih =>
    rw [completeFields?] at completed
    obtain ⟨first, done, completed⟩ := Option.bind_eq_some_iff.mp completed
    obtain ⟨later, rest, same⟩ := Option.bind_eq_some_iff.mp completed
    obtain rfl := Option.some.inj same
    rcases List.mem_cons.mp member with same | member
    · obtain ⟨rfl, rfl⟩ := Prod.mk.inj same
      exact ⟨field, List.mem_cons_self, done⟩
    · obtain ⟨other, listed, done⟩ := ih rest member
      exact ⟨other, List.mem_cons_of_mem _ listed, done⟩

/-- A table whose values are in order is in order when its entries are those of a dictionary. -/
theorem ordered_entries {entries : List (String × Value)} (ordered : ∀ entry ∈ entries, entry.2.Ordered) :
    (Value.table (Dictionary.ofList entries).entries).Ordered :=
  .table (Dictionary.ofList entries).ascending fun entry member =>
    ordered entry (Dictionary.mem_of_mem_entries_ofList member)

theorem Item.Sound.ordered {item : Item} (sound : item.Sound) {value : Value}
    (completed : item.complete? = some value) : value.Ordered := by
  induction sound generalizing value with
  | value isLeaf =>
    rw [Item.complete?] at completed
    obtain rfl := Option.some.inj completed
    exact .leaf isLeaf
  | arr items =>
    rw [Item.complete?] at completed
    obtain ⟨values, _, same⟩ := Option.bind_eq_some_iff.mp completed
    obtain rfl := Option.some.inj same
    exact .leaf rfl
  | tables earlier last =>
    rw [Item.complete?] at completed
    obtain ⟨values, _, completed⟩ := Option.bind_eq_some_iff.mp completed
    obtain ⟨value, _, same⟩ := Option.bind_eq_some_iff.mp completed
    obtain rfl := Option.some.inj same
    exact .leaf rfl
  | @table origin fields _ ih =>
    rw [Item.complete?] at completed
    cases fields with
    | nil =>
      rw [completeTable?] at completed
      obtain rfl := Option.some.inj completed
      exact .table .nil nofun
    | cons field fields =>
      obtain ⟨key, item⟩ := field
      rw [completeTable?] at completed
      split at completed
      · exact .leaf (isLeaf_of_moment? completed)
      · obtain ⟨first, done, completed⟩ := Option.bind_eq_some_iff.mp completed
        obtain ⟨later, rest, same⟩ := Option.bind_eq_some_iff.mp completed
        obtain rfl := Option.some.inj same
        refine ordered_entries (List.forall_mem_cons.mpr ⟨ih _ List.mem_cons_self done, fun (_, _) member => ?_⟩)
        obtain ⟨field, listed, done⟩ := exists_of_completeFields? rest member
        exact ih field (List.mem_cons_of_mem _ listed) done

/-- The table that a configuration text describes has its keys in order, and so have the tables in it. -/
theorem ordered_of_fieldsOf? {text : String} {fields : List (String × Value)} (read : fieldsOf? text = some fields) :
    (Value.table fields).Ordered := by
  unfold fieldsOf? at read
  obtain ⟨⟨statements, rest⟩, ran, read⟩ := Option.bind_eq_some_iff.mp read
  obtain ⟨built, formed, read⟩ := Option.bind_eq_some_iff.mp read
  obtain ⟨values, completed, same⟩ := Option.bind_eq_some_iff.mp read
  obtain rfl := Option.some.inj same
  have sound := Fields.sound_of_ofStatements? (Yields.many line_yields _ _ _ ran) formed
  refine ordered_entries fun (key, value) member => ?_
  obtain ⟨field, listed, done⟩ := exists_of_completeFields? completed member
  exact (sound field listed).ordered done

end Toml

end RouteDepot
