import FloatCases.Grammar.Rule

/-!
Hex-float numerals found in running text. A numeral is an optional minus sign, `0x`, a decimal
digit, an optional hex fraction, `p`, an optional sign, decimal digits and an optional type suffix.
Where the text breaks off inside a numeral, the scan drops what it has read and goes on from there.
-/
namespace FloatCases

/-- The type suffix of a numeral. -/
inductive Suffix where
  | long
  | quad
  deriving DecidableEq, Repr

/-- What stands before the `p` of a numeral. -/
structure Mantissa where
  negative : Bool
  digit : Char
  /-- The digits after the point, of which there is at least one. -/
  fraction : Option Text
  deriving DecidableEq, Repr

/-- What stands after the `p` of a numeral. -/
structure Scale where
  sign : Option Char
  digits : Text
  suffix : Option Suffix
  deriving DecidableEq, Repr

/-- A numeral of running text. -/
structure Lexeme where
  mantissa : Mantissa
  scale : Scale
  deriving DecidableEq, Repr

namespace Lexeme

/-- Reads the fraction at the head of a text; a point without a hex digit after it is none. -/
def takeFraction : Text → Option Text × Text
  | '.' :: s =>
    if s.takeWhile Grammar.isHexDigit = [] then (none, '.' :: s)
    else (some (s.takeWhile Grammar.isHexDigit), s.dropWhile Grammar.isHexDigit)
  | s => (none, s)

/-- Reads a mantissa without its sign at the head of a text. -/
def takeMagnitude? (negative : Bool) : Text → Option (Mantissa × Text)
  | '0' :: 'x' :: d :: s =>
    if d.isDigit then some (⟨negative, d, (takeFraction s).1⟩, (takeFraction s).2) else none
  | _ => none

/-- Reads a mantissa at the head of a text. -/
def takeMantissa? : Text → Option (Mantissa × Text)
  | '-' :: s => takeMagnitude? true s
  | s => takeMagnitude? false s

/-- Reads a plus or minus sign at the head of a text. -/
def takeSign : Text → Option Char × Text
  | '+' :: s => (some '+', s)
  | '-' :: s => (some '-', s)
  | s => (none, s)

/-- Reads a type suffix at the head of a text. -/
def takeSuffix : Text → Option Suffix × Text
  | 'L' :: s => (some .long, s)
  | 'Q' :: s => (some .quad, s)
  | s => (none, s)

/-- Reads what may follow the `p` of a numeral at the head of a text. -/
def takeScale? (s : Text) : Option (Scale × Text) :=
  let (sign, digits) := takeSign s
  let (suffix, rest) := takeSuffix (digits.dropWhile Char.isDigit)
  if digits.takeWhile Char.isDigit = [] then none
  else some (⟨sign, digits.takeWhile Char.isDigit, suffix⟩, rest)

/-- The numeral at the head of a text, if there is one, and the text that the scan goes on with. -/
def step (s : Text) : Option Lexeme × Text :=
  match takeMantissa? s with
  | none => (none, s.tail)
  | some (mantissa, 'p' :: rest) =>
    match takeScale? rest with
    | none => (none, rest)
    | some (scale, rest) => (some ⟨mantissa, scale⟩, rest)
  | some (_, rest) => (none, rest)

theorem length_dropWhile_le (p : Char → Bool) (s : Text) : (s.dropWhile p).length ≤ s.length :=
  (List.dropWhile_sublist p).length_le

theorem takeFraction_length_le (s : Text) : (takeFraction s).2.length ≤ s.length := by
  unfold takeFraction
  split
  · rename_i s
    have := length_dropWhile_le Grammar.isHexDigit s
    split
    · exact Nat.le_refl _
    · exact Nat.le_succ_of_le this
  · exact Nat.le_refl _

theorem takeMagnitude?_length_lt {n : Bool} {s rest : Text} {m : Mantissa}
    (h : takeMagnitude? n s = some (m, rest)) : rest.length < s.length := by
  unfold takeMagnitude? at h
  split at h
  · rename_i d s
    have := takeFraction_length_le s
    split at h
    · obtain ⟨rfl, rfl⟩ := by simpa using h
      simp
      omega
    · simp at h
  · simp at h

theorem takeMantissa?_length_lt {s rest : Text} {m : Mantissa}
    (h : takeMantissa? s = some (m, rest)) : rest.length < s.length := by
  unfold takeMantissa? at h
  split at h
  · have := takeMagnitude?_length_lt h
    simp
    omega
  · exact takeMagnitude?_length_lt h

theorem takeSign_length_le (s : Text) : (takeSign s).2.length ≤ s.length := by
  unfold takeSign
  split <;> simp

theorem takeSuffix_length_le (s : Text) : (takeSuffix s).2.length ≤ s.length := by
  unfold takeSuffix
  split <;> simp

theorem takeScale?_length_le {s rest : Text} {e : Scale}
    (h : takeScale? s = some (e, rest)) : rest.length ≤ s.length := by
  have hs := takeSign_length_le s
  have hd := length_dropWhile_le Char.isDigit (takeSign s).2
  have hr := takeSuffix_length_le ((takeSign s).2.dropWhile Char.isDigit)
  simp only [takeScale?] at h
  split at h
  · simp at h
  · obtain ⟨_, rfl⟩ := by simpa using h
    omega

/-- A step leaves less text than there was. -/
theorem step_length_lt {s : Text} (hs : s ≠ []) : (step s).2.length < s.length := by
  unfold step
  split
  · cases s with
    | nil => exact absurd rfl hs
    | cons c s => simp
  · rename_i m rest hm
    have hlt := takeMantissa?_length_lt hm
    simp only [List.length_cons] at hlt
    split
    · simp
      omega
    · rename_i e rest' he
      have hle := takeScale?_length_le he
      simp
      omega
  · rename_i hm
    exact takeMantissa?_length_lt hm

/-- The numerals of a text, in order. -/
def scan : Text → List Lexeme
  | [] => []
  | c :: s => (step (c :: s)).1.toList ++ scan (step (c :: s)).2
termination_by s => s.length
decreasing_by exact step_length_lt (List.cons_ne_nil c s)

end Lexeme
end FloatCases
