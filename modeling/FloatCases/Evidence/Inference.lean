import FloatCases.Evidence.Lexeme
import FloatCases.Format

/-!
The format of a test file, guessed from the numerals in its lines: the widest format that one of
them asks for.
-/
namespace FloatCases

namespace Scale

/-- The largest exponent that is told apart from larger ones. -/
def magnitudeLimit : Nat :=
  UInt32.size - 1

/-- The size of the exponent, as far as it is told apart. -/
def magnitude (e : Scale) : Nat :=
  e.digits.foldl (fun n d => min (10 * n + (d.toNat - '0'.toNat)) magnitudeLimit) 0

end Scale

namespace Lexeme

/-- The digits after the point. -/
def fraction (x : Lexeme) : Text :=
  x.mantissa.fraction.getD []

/-- Whether a numeral has more than six fraction digits or an exponent beyond 127. -/
def exceedsSingle (x : Lexeme) : Bool :=
  6 < x.fraction.length || 127 < x.scale.magnitude

/-- The narrowest format that a numeral asks for. -/
def demand (x : Lexeme) : FloatFormat :=
  match x.scale.suffix with
  | some .quad => .f128
  | some .long => .f64
  | none => if x.exceedsSingle then .f64 else .f32

end Lexeme

namespace Inference

/-- The text after the first place where the fields of a test case open. -/
def afterOpening : Text → Text
  | [] => []
  | 'T' :: '(' :: s => s
  | _ :: s => afterOpening s

/-- The numerals of a line that count as evidence. -/
def evidence (line : Text) : List Lexeme :=
  Lexeme.scan (afterOpening line)

/-- The format of a file with given lines. -/
def infer (lines : List Text) : FloatFormat :=
  (lines.flatMap evidence).foldr (fun x f => x.demand.wider f) .f32

end Inference
end FloatCases
