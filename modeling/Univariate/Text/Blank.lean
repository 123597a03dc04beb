import Univariate.Text.Ranges

/-!
# Blanks

A blank is a character with the Unicode property White_Space. Twenty-five characters have it,
among them the no-break space and the ideographic space; the zero-width space has not.
-/

namespace Univariate.Text

def blankRanges : List (Nat × Nat) :=
  [(0x0009, 0x000D), (0x0020, 0x0020), (0x0085, 0x0085), (0x00A0, 0x00A0), (0x1680, 0x1680),
    (0x2000, 0x200A), (0x2028, 0x2029), (0x202F, 0x202F), (0x205F, 0x205F), (0x3000, 0x3000)]

def isBlank (c : Char) : Bool := within blankRanges c.toNat

end Univariate.Text
