import FloatCases.Text.Basic

/-!
Texts without the characters that a terminal takes as commands.
-/
namespace FloatCases.Text

/-- The characters of the ASCII range that start or are commands to a terminal. -/
def commandChars : List Char :=
  ['\x07', '\x08', '\x0c', '\x1b', '\x7f']

/-- Whether a character is one of the control characters after the ASCII range. -/
def isHighControl (c : Char) : Bool :=
  0x80 ≤ c.toNat && c.toNat ≤ 0x9f

/-- A character, or the number of one that a terminal could take as a command. -/
def escapeChar (c : Char) : Text :=
  if c ∈ commandChars then "\\x".toList ++ (Nat.toDigits 16 c.toNat).leftpad 2 '0'
  else if isHighControl c then "\\u\x7b".toList ++ Nat.toDigits 16 c.toNat ++ "\x7d".toList
  else [c]

/-- A text with numbers in place of the characters that a terminal could take as commands. -/
def escape (s : Text) : Text :=
  s.flatMap escapeChar

end FloatCases.Text
