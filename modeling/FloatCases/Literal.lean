import FloatCases.Format
import FloatCases.Grammar.Rule

/-!
Hex-float literals and their canonical spelling, which depends on the float format only in the
number of zeros at the end of a fraction.
-/
namespace FloatCases

/-- A hex-float literal, without its type suffix. -/
inductive Literal where
  | infinity (negative : Bool)
  | notANumber
  | negativeZero
  /-- A one-digit integer. -/
  | integer (negative : Bool) (digit : Char)
  /-- A power of two with a signed decimal exponent. -/
  | power (negative : Bool) (exponent : Text)
  /-- A one with a hex fraction, times a power of two. -/
  | fractional (negative : Bool) (fraction exponent : Text)
  deriving DecidableEq, Repr

/-- A text that is no literal. -/
structure LiteralError where
  literal : Text
  deriving DecidableEq, Repr

/-- What is said of a text that is no literal. -/
def LiteralError.message (e : LiteralError) : Text :=
  "malformed hex-float literal ".toList ++ Text.quoted e.literal

namespace Literal

/-- The literal that a part of a text with the label of a shape stands for. -/
def ofTree? (t : Tree Rule) : Option Literal :=
  match t.label with
  | .special =>
    if t.text = "nan".toList then some notANumber else some (infinity (t.text.head? = some '-'))
  | .negativeZero => some negativeZero
  | .integer => do
    let digit ← t.textOf? .digit
    return integer (t.has .sign) (← digit.head?)
  | .power => return power (t.has .sign) (← t.textOf? .exponent)
  | .fractional =>
    return fractional (t.has .sign) (← t.textOf? .fraction) (← t.textOf? .exponent)
  | _ => none

/-- The literal that a text is the spelling of. -/
def read? (s : Text) : Option Literal := do
  let tree ← (← Rule.literal.parse? s).head?
  ofTree? (← tree.children.head?)

/-- A minus sign or nothing. -/
def sign (negative : Bool) : Text :=
  if negative then ['-'] else []

/-- A fraction with zeros up to `n` digits if at least two are missing, otherwise unchanged. -/
def padFraction (n : Nat) (fraction : Text) : Text :=
  if fraction.length + 2 ≤ n then fraction.rightpad n '0' else fraction

/-- The canonical spelling of a literal in a format. -/
def spelling (f : FloatFormat) : Literal → Text
  | infinity negative => sign negative ++ "inf".toList
  | notANumber => "nan".toList
  | negativeZero => "-0x0p+0".toList
  | integer negative digit => sign negative ++ [digit]
  | power negative exponent => sign negative ++ "0x1p".toList ++ exponent
  | fractional negative fraction exponent =>
    sign negative ++ "0x1.".toList ++ padFraction f.hexDigits fraction ++ 'p' :: exponent

/-- The canonical spelling of the literal that a text spells. -/
def canonicalize (f : FloatFormat) (s : Text) : Except LiteralError Text :=
  match read? s with
  | none => .error ⟨s⟩
  | some l => .ok (l.spelling f)

/-- Canonicalizes for one format after another, each time what the last success gave. -/
def canonicalizeAll : List FloatFormat → Text → List (Except LiteralError Text)
  | [], _ => []
  | f :: fs, s =>
    match canonicalize f s with
    | .error e => .error e :: canonicalizeAll fs s
    | .ok t => .ok t :: canonicalizeAll fs t

-- The parentheses around `rfl` keep these equations from being unfolded to be used by `dsimp`,
-- which takes long for the fixed texts and the grammar in them.

theorem spelling_of_fractional (f : FloatFormat) (negative : Bool) (fraction exponent : Text) :
    (fractional negative fraction exponent).spelling f =
      sign negative ++ "0x1.".toList ++ padFraction f.hexDigits fraction ++ 'p' :: exponent :=
  (rfl)

theorem canonicalizeAll_cons (f : FloatFormat) (fs : List FloatFormat) (s : Text) :
    canonicalizeAll (f :: fs) s =
      match canonicalize f s with
      | .error e => Except.error e :: canonicalizeAll fs s
      | .ok t => Except.ok t :: canonicalizeAll fs t :=
  (rfl)

theorem canonicalize_eq_error_iff {f : FloatFormat} {s : Text} {e : LiteralError} :
    canonicalize f s = .error e ↔ read? s = none ∧ e = ⟨s⟩ := by
  unfold canonicalize
  cases read? s <;> simp [eq_comm]

theorem canonicalize_eq_ok_iff {f : FloatFormat} {s t : Text} :
    canonicalize f s = .ok t ↔ ∃ l, read? s = some l ∧ l.spelling f = t := by
  unfold canonicalize
  cases read? s <;> simp

end Literal
end FloatCases
