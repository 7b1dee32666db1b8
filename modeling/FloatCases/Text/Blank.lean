import FloatCases.Text.Basic

/-!
White space in the sense of the Unicode property `White_Space`, and texts without it at their ends.
-/
namespace FloatCases.Text

/-- The ranges of code points with the property `White_Space`. -/
def blankRanges : List (Nat × Nat) :=
  [(0x09, 0x0D), (0x20, 0x20), (0x85, 0x85), (0xA0, 0xA0), (0x1680, 0x1680), (0x2000, 0x200A),
    (0x2028, 0x2029), (0x202F, 0x202F), (0x205F, 0x205F), (0x3000, 0x3000)]

/-- Whether a character is white space. -/
def isBlank (c : Char) : Bool :=
  blankRanges.any fun r => r.1 ≤ c.toNat && c.toNat ≤ r.2

/-- A text without the white space at its start. -/
def trimStart (s : Text) : Text :=
  s.dropWhile isBlank

/-- A text without the white space at its end. -/
def trimEnd (s : Text) : Text :=
  (s.reverse.dropWhile isBlank).reverse

/-- A text without the white space at its ends. -/
def trim (s : Text) : Text :=
  trimEnd (trimStart s)

end FloatCases.Text
