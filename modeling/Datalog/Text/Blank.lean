/-!
# Blanks at the ends of a line

A line typed at a session is taken without the blanks around it.  A blank is a
character of the Unicode property `White_Space`, a wider class than the layout
of the language itself, which knows only the space, the tab and the two
characters that end lines.
-/

set_option autoImplicit false

namespace Datalog.Text

/-- The ranges of the Unicode property `White_Space`, as pairs of first and last
code points in increasing order. -/
def blankRanges : List (Nat × Nat) :=
  [(0x9, 0xD), (0x20, 0x20), (0x85, 0x85), (0xA0, 0xA0), (0x1680, 0x1680), (0x2000, 0x200A),
   (0x2028, 0x2029), (0x202F, 0x202F), (0x205F, 0x205F), (0x3000, 0x3000)]

/-- Whether a character has the Unicode property `White_Space`. -/
def isBlank (c : Char) : Bool :=
  blankRanges.any fun (first, last) => first ≤ c.toNat && c.toNat ≤ last

/-- A text without the blanks at its two ends. -/
def trim (text : List Char) : List Char :=
  ((text.dropWhile isBlank).reverse.dropWhile isBlank).reverse

end Datalog.Text
