import Mathlib.Data.String.Basic
import RouteDepot.Diagnostic

/-! # Offsets between characters

A byte offset is a boundary of a text when it does not fall inside a character; then there is a rest of the text from
it on. Reading characters off the rest leads from boundary to boundary. A span lies within two offsets when it ends
where it begins or later, both at boundaries.
-/

namespace RouteDepot

namespace Text

variable {whole text rest : List Char} {offset : Nat}

theorem byteLength_toList (s : String) : byteLength s.toList = s.utf8ByteSize := by
  have same (cs : List Char) : byteLength cs = String.utf8Len cs := by
    induction cs with
    | nil => simp [byteLength]
    | cons c cs ih => simp [byteLength, ih, Nat.add_comm]
  rw [same, String.utf8Len_toList]

/-- Characters that take one byte each. -/
theorem byteLength_eq_length (single : ∀ c ∈ text, c.utf8Size = 1) : byteLength text = text.length := by
  induction text with
  | nil => rfl
  | cons c text ih =>
    obtain ⟨first, later⟩ := List.forall_mem_cons.mp single
    rw [byteLength, first, ih later, List.length_cons, Nat.add_comm]

theorem byteLength_pos (present : text ≠ []) : 0 < byteLength text := by
  obtain ⟨c, later, rfl⟩ := List.exists_cons_of_ne_nil present
  have size := c.utf8Size_pos
  rw [byteLength]
  omega

/-! ### Rests -/

/-- What stands behind a byte offset of a text. -/
def RestAt (whole : List Char) (offset : Nat) (rest : List Char) : Prop :=
  ∃ before, whole = before ++ rest ∧ byteLength before = offset

/-- An offset of a text that does not fall inside a character. -/
def IsBoundary (whole : List Char) (offset : Nat) : Prop := ∃ rest, RestAt whole offset rest

theorem restAt_zero (whole : List Char) : RestAt whole 0 whole := ⟨[], rfl, rfl⟩

theorem RestAt.isBoundary (stands : RestAt whole offset rest) : IsBoundary whole offset := ⟨rest, stands⟩

/-- Some characters further. -/
theorem RestAt.behind (stands : RestAt whole offset (text ++ rest)) :
    RestAt whole (offset + byteLength text) rest := by
  obtain ⟨before, rfl, rfl⟩ := stands
  exact ⟨before ++ text, (List.append_assoc ..).symm, byteLength_append ..⟩

/-- One character further. -/
theorem RestAt.tail {c : Char} (stands : RestAt whole offset (c :: rest)) :
    RestAt whole (offset + c.utf8Size) rest := by
  have stands : RestAt whole offset ([c] ++ rest) := stands
  exact stands.behind

theorem RestAt.stop_eq (stands : RestAt whole offset rest) : offset + byteLength rest = byteLength whole := by
  obtain ⟨before, rfl, rfl⟩ := stands
  exact (byteLength_append ..).symm

theorem IsBoundary.le (boundary : IsBoundary whole offset) : offset ≤ byteLength whole := by
  obtain ⟨rest, stands⟩ := boundary
  have stop := stands.stop_eq
  omega

theorem isBoundary_zero (whole : List Char) : IsBoundary whole 0 := (restAt_zero whole).isBoundary

theorem isBoundary_byteLength (whole : List Char) : IsBoundary whole (byteLength whole) :=
  ⟨[], whole, (List.append_nil whole).symm, rfl⟩

/-- A text is cut at every boundary. -/
theorem splitAtByte?_append (before rest : List Char) :
    splitAtByte? (before ++ rest) (byteLength before) = some (before, rest) := by
  induction before with
  | nil => rw [List.nil_append, byteLength, splitAtByte?]
  | cons c before ih =>
    obtain ⟨size, shape⟩ : ∃ size, c.utf8Size + byteLength before = size + 1 :=
      Nat.exists_eq_succ_of_ne_zero (by have := c.utf8Size_pos; omega)
    have left : size + 1 - c.utf8Size = byteLength before := by omega
    rw [List.cons_append, byteLength, shape, splitAtByte?, if_pos (by omega), left, ih]
    rfl

theorem RestAt.textBefore (stands : RestAt whole offset rest) :
    whole = textBefore whole offset ++ rest ∧ byteLength (textBefore whole offset) = offset := by
  obtain ⟨before, rfl, rfl⟩ := stands
  rw [Text.textBefore, splitAtByte?_append]
  exact ⟨rfl, rfl⟩

end Text

/-! ### Spans -/

namespace Span

variable {whole text : List Char} {s : Span} {lo hi : Nat}

/-- A span between two offsets of a text: it ends where it begins or later, both at boundaries. -/
structure Within (s : Span) (whole : List Char) (lo hi : Nat) : Prop where
  above : lo ≤ s.start
  ordered : s.start ≤ s.stop
  below : s.stop ≤ hi
  start_boundary : Text.IsBoundary whole s.start
  stop_boundary : Text.IsBoundary whole s.stop

theorem Within.mono {lo' hi' : Nat} (within : s.Within whole lo hi) (above : lo' ≤ lo) (below : hi ≤ hi') :
    s.Within whole lo' hi' :=
  { within with above := Nat.le_trans above within.above, below := Nat.le_trans within.below below }

/-- A byte offset among the bytes of a span. -/
def Holds (s : Span) (offset : Nat) : Prop := s.start ≤ offset ∧ offset < s.stop

instance (s : Span) (offset : Nat) : Decidable (s.Holds offset) := inferInstanceAs (Decidable (_ ∧ _))

/-- The bytes of a span are those of some characters. -/
def Covers (s : Span) (whole text : List Char) : Prop :=
  ∃ rest, Text.RestAt whole s.start (text ++ rest) ∧ s.stop = s.start + Text.byteLength text

theorem Covers.within (covers : s.Covers whole text) : s.Within whole s.start s.stop := by
  obtain ⟨rest, stands, stop⟩ := covers
  have stopBoundary : Text.IsBoundary whole s.stop := stop ▸ stands.behind.isBoundary
  exact ⟨Nat.le_refl _, by omega, Nat.le_refl _, stands.isBoundary, stopBoundary⟩

end Span

end RouteDepot
