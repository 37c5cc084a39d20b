/-! # Byte offsets

Positions in a text are counted in bytes of its UTF-8 form. An offset is a boundary when it does not fall
inside a character.
-/

namespace RouteDepot.Text

/-- The number of bytes of the UTF-8 form. -/
def byteLength : List Char → Nat
  | [] => 0
  | c :: cs => c.utf8Size + byteLength cs

/-- The characters before and after a byte offset; nothing when it is no boundary of the text. -/
def splitAtByte? : List Char → Nat → Option (List Char × List Char)
  | cs, 0 => some ([], cs)
  | [], _ + 1 => none
  | c :: cs, offset + 1 =>
    if c.utf8Size ≤ offset + 1 then
      (splitAtByte? cs (offset + 1 - c.utf8Size)).map fun (l, r) => (c :: l, r)
    else none

@[simp]
theorem byteLength_append (l r : List Char) : byteLength (l ++ r) = byteLength l + byteLength r := by
  induction l with
  | nil => simp [byteLength]
  | cons c l ih => simp [byteLength, ih, Nat.add_assoc]

/-- The text up to the offset, and the whole text when the offset is no boundary. -/
def textBefore (cs : List Char) (offset : Nat) : List Char :=
  match splitAtByte? cs offset with
  | some (before, _) => before
  | none => cs

end RouteDepot.Text
