import RouteDepot.Text.Ranges

/-! # Blank characters

The characters with the Unicode property `White_Space`, and what it means to trim a text of them.
-/

namespace RouteDepot.Text

/-- The code points with the property `White_Space`, in ascending order. -/
def blankRanges : List (Nat × Nat) :=
  [(0x9, 0xD), (0x20, 0x20), (0x85, 0x85), (0xA0, 0xA0), (0x1680, 0x1680), (0x2000, 0x200A),
   (0x2028, 0x2029), (0x202F, 0x202F), (0x205F, 0x205F), (0x3000, 0x3000)]

/-- Spaces, tabs, line ends and the wider blanks of Unicode. -/
def isBlank (c : Char) : Bool := inRanges blankRanges c

/-- The characters without the blanks at their end. -/
def trimEndList (cs : List Char) : List Char := (cs.reverse.dropWhile isBlank).reverse

/-- The characters without the blanks at either end. -/
def trimList (cs : List Char) : List Char := trimEndList (cs.dropWhile isBlank)

/-- The text without the blanks at either end. -/
def trim (s : String) : String := String.ofList (trimList s.toList)

end RouteDepot.Text
