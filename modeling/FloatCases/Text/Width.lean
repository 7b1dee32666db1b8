import FloatCases.Text.Blank
import FloatCases.Text.WidthTable

/-!
The number of terminal columns that a character takes.
-/
namespace FloatCases.Text

/-- Whether a number lies in one of several ranges, which are in increasing order. -/
def inRanges (n : Nat) : List (Nat × Nat) → Bool
  | [] => false
  | r :: rest => r.1 ≤ n && (n ≤ r.2 || inRanges n rest)

/-- The Khmer vowel "qaa", which is drawn as two characters. -/
def khmerQaa : Char :=
  '\u17a4'

/-- The Khmer sign for "and so on", which is drawn as three. -/
def khmerBeyyal : Char :=
  '\u17d8'

/-- The number of columns of a character that is neither white space nor a control character. -/
def printedWidth (c : Char) : Nat :=
  if inRanges c.toNat zeroWidthRanges then 0
  else if inRanges c.toNat wideRanges || c = khmerQaa then 2
  else if c = khmerBeyyal then 3
  else 1

/-- The number of columns of a character at position `col`; tabs stop at every fourth. -/
def width (c : Char) (col : Nat) : Nat :=
  if c = '\t' then (col / 4 + 1) * 4 - col
  else if isBlank c then 1
  else printedWidth c

end FloatCases.Text
