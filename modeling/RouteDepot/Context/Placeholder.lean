import RouteDepot.Context.Error
import RouteDepot.Dictionary
import RouteDepot.Text.Blank
import RouteDepot.Text.Cut

/-! # Property placeholders

A text may hold placeholders between double braces: a key, and perhaps a default behind a colon. The text is
read from left to right: a placeholder begins at the first opening and ends at the first closing behind it, and
what is put in its place is not read again.
-/

namespace RouteDepot

/-- The values of properties by their keys. -/
abbrev Properties := Dictionary String

namespace Placeholder

/-- A part of a text. -/
inductive Segment where
  | literal (text : List Char)
  /-- What stands between an opening and the closing behind it. -/
  | placeholder (content : List Char)
  /-- An opening without a closing behind it. -/
  | unclosed
  deriving DecidableEq, Repr

/-- What stands before and after the first double occurrence of a character. -/
def cutDouble? (c : Char) : List Char → Option (List Char × List Char)
  | a :: b :: later =>
    if a = c ∧ b = c then some ([], later)
    else (cutDouble? c (b :: later)).map fun (before, after) => (a :: before, after)
  | _ => none

theorem cutDouble?_eq_some {c : Char} {cs before after : List Char}
    (found : cutDouble? c cs = some (before, after)) : cs = before ++ c :: c :: after := by
  fun_induction cutDouble? c cs generalizing before with
  | case1 a b later same =>
    simp only [Option.some.injEq, Prod.mk.injEq] at found
    obtain ⟨rfl, rfl⟩ := found
    simp [same]
  | case2 a b later _ ih =>
    simp only [Option.map_eq_some_iff, Prod.mk.injEq, Prod.exists] at found
    obtain ⟨l, r, inner, rfl, rfl⟩ := found
    rw [ih inner, List.cons_append]
  | case3 => simp at found

theorem length_lt_of_cutDouble? {c : Char} {cs before after : List Char}
    (found : cutDouble? c cs = some (before, after)) : after.length < cs.length := by
  rw [cutDouble?_eq_some found]
  simp only [List.length_append, List.length_cons]
  omega

/-- The parts of a text in order. -/
def segments (cs : List Char) : List Segment :=
  match opened : cutDouble? '{' cs with
  | none => [.literal cs]
  | some (before, inside) =>
    match closed : cutDouble? '}' inside with
    | none => [.literal before, .unclosed]
    | some (content, after) =>
      have : after.length < cs.length :=
        Nat.lt_trans (length_lt_of_cutDouble? closed) (length_lt_of_cutDouble? opened)
      .literal before :: .placeholder content :: segments after
termination_by cs.length

/-- The key and the default of a placeholder; blanks around the key do not count. -/
def keyAndDefault (content : List Char) : List Char × Option (List Char) :=
  match Text.cutList? ':' content with
  | some (key, default) => (Text.trimList key, some default)
  | none => (content, none)

/-- What is put in the place of a part of the whole text. -/
def Segment.resolve (properties : Properties) (whole : String) : Segment → Except ContextError (List Char)
  | .literal text => .ok text
  | .unclosed => .error (.malformedPlaceholder whole)
  | .placeholder content =>
    let content := Text.trimList content
    if content.isEmpty then .error (.malformedPlaceholder whole)
    else
      let (key, default) := keyAndDefault content
      match properties.get? (String.ofList key), default with
      | some value, _ => .ok value.toList
      | none, some default => .ok default
      | none, none => .error (.unresolvedPlaceholder (String.ofList key))

/-- The parts of the whole text resolved one after another, up to the first fault. -/
def resolveSegments (properties : Properties) (whole : String) :
    List Segment → Except ContextError (List Char)
  | [] => .ok []
  | segment :: later => do
    let text ← segment.resolve properties whole
    return text ++ (← resolveSegments properties whole later)

end Placeholder

/-- The text with every placeholder replaced by the value of its property or by its default. -/
def Properties.resolve (properties : Properties) (text : String) : Except ContextError String :=
  String.ofList <$> Placeholder.resolveSegments properties text (Placeholder.segments text.toList)

end RouteDepot
