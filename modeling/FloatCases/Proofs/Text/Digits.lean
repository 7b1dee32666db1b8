import FloatCases.Text.Basic
import Mathlib.Tactic.Ring

/-!
The numbers that digits stand for.
-/
namespace FloatCases

/-- The value of a hex digit. -/
def digitValue (c : Char) : Nat :=
  if c.isDigit then c.toNat - '0'.toNat else c.toNat - 'a'.toNat + 10

namespace Text

/-- The number that digits stand for in a base. -/
def number (base : Nat) (s : Text) : Nat :=
  s.foldl (fun n c => base * n + digitValue c) 0

theorem number_append_zeros (s : Text) (k : Nat) :
    number 16 (s ++ List.replicate k '0') = number 16 s * 16 ^ k := by
  induction k with
  | zero => simp
  | succ k ih =>
    have hz : digitValue '0' = 0 := by decide
    rw [List.replicate_succ', ← List.append_assoc, number, List.foldl_append, ← number, ih]
    simp only [List.foldl_cons, List.foldl_nil, hz]
    ring

end Text
end FloatCases
