/-! # Cutting a text at a character

The first or the last occurrence of a separator cuts a text in two; all occurrences cut it into pieces.
-/

namespace RouteDepot.Text

/-- What stands before and after the first separator, if there is one. -/
def cutList? (separator : Char) : List Char → Option (List Char × List Char)
  | [] => none
  | c :: cs => if c = separator then some ([], cs) else (cutList? separator cs).map fun (l, r) => (c :: l, r)

theorem cutList?_eq_some {separator : Char} {cs before after : List Char}
    (found : cutList? separator cs = some (before, after)) :
    cs = before ++ separator :: after ∧ separator ∉ before := by
  induction cs generalizing before with
  | nil => simp [cutList?] at found
  | cons c cs ih =>
    by_cases same : c = separator
    · simp only [cutList?, same, if_true, Option.some.injEq, Prod.mk.injEq] at found
      obtain ⟨rfl, rfl⟩ := found
      simp [same]
    · simp only [cutList?, same, if_false, Option.map_eq_some_iff, Prod.mk.injEq, Prod.exists] at found
      obtain ⟨l, r, inner, rfl, rfl⟩ := found
      obtain ⟨rfl, absent⟩ := ih inner
      exact ⟨rfl, by simp [Ne.symm same, absent]⟩

theorem cutList?_eq_none {separator : Char} {cs : List Char} :
    cutList? separator cs = none ↔ separator ∉ cs := by
  induction cs with
  | nil => simp [cutList?]
  | cons c cs ih =>
    by_cases same : c = separator
    · simp [cutList?, same]
    · simp [cutList?, same, ih, Ne.symm same]

theorem cutList?_append {separator : Char} {before : List Char} (absent : separator ∉ before) (after : List Char) :
    cutList? separator (before ++ separator :: after) = some (before, after) := by
  induction before with
  | nil => simp [cutList?]
  | cons c before ih =>
    simp only [List.mem_cons, not_or] at absent
    obtain ⟨differs, absent⟩ := absent
    simp [cutList?, Ne.symm differs, ih absent]

/-- What stands before and after the last separator, if there is one. -/
def cutLastList? (separator : Char) (cs : List Char) : Option (List Char × List Char) :=
  (cutList? separator cs.reverse).map fun (after, before) => (before.reverse, after.reverse)

/-- What stands behind a text at the front of another. -/
def behind? : List Char → List Char → Option (List Char)
  | [], cs => some cs
  | _ :: _, [] => none
  | a :: front, c :: cs => if a = c then behind? front cs else none

theorem behind?_eq_some {front cs rest : List Char} : behind? front cs = some rest ↔ cs = front ++ rest := by
  induction front generalizing cs with
  | nil => simp [behind?]
  | cons a front ih =>
    cases cs with
    | nil => simp [behind?]
    | cons c cs =>
      by_cases same : a = c
      · simp [behind?, same, ih]
      · simp [behind?, same, Ne.symm same]

/-- The pieces between the separators; a text without a separator is one piece. -/
def piecesList (separator : Char) : List Char → List (List Char)
  | [] => [[]]
  | c :: cs =>
    if c = separator then [] :: piecesList separator cs
    else match piecesList separator cs with
      | [] => [[c]]
      | piece :: later => (c :: piece) :: later

/-- What stands before and after the first separator, if there is one. -/
def cut? (separator : Char) (s : String) : Option (String × String) :=
  (cutList? separator s.toList).map fun (l, r) => (String.ofList l, String.ofList r)

/-- What stands before and after the last separator, if there is one. -/
def cutLast? (separator : Char) (s : String) : Option (String × String) :=
  (cutLastList? separator s.toList).map fun (l, r) => (String.ofList l, String.ofList r)

/-- The pieces between the separators. -/
def pieces (separator : Char) (s : String) : List String :=
  (piecesList separator s.toList).map String.ofList

end RouteDepot.Text
