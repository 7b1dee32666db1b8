import FloatCases.Proofs.Conversion.Options
import FloatCases.Proofs.Line.Refusal
import FloatCases.Proofs.Report.Placement
import FloatCases.Report.Drawing
import Mathlib.Algebra.GroupWithZero.Nat

/-!
The marks of a report. Main statement: the characters of the source that are red are those of the
part to blame, and the marks below take the same columns of the terminal, if the part has no white
space in it.
-/
namespace FloatCases

variable {c : Char} {s before token after : Text} {above below : List Text} {n col : Nat}
  {o : Options} {source : Text} {x : LineFault}

namespace Text

theorem isDigit_of_mem_ofNat (h : c ∈ ofNat n) : c.isDigit = true :=
  Nat.isDigit_of_mem_toDigits (by decide) (by decide) h

end Text

namespace Report

/-- The characters of a line of a report. -/
def text (r : Row) : Text :=
  r.flatMap Piece.text

/-- The number of terminal columns of a line of a report. -/
def columns (r : Row) : Nat :=
  ((text r).map Text.printedWidth).sum

variable {row : Row} {ink : Ink} {w : Window} {r : SourceRow}

@[simp]
theorem text_append (r r' : Row) : text (r ++ r') = text r ++ text r' :=
  List.flatMap_append

@[simp]
theorem columns_append (r r' : Row) : columns (r ++ r') = columns r + columns r' := by
  simp [columns]

theorem text_placeRow (w : Window) (name : Text) (n : Nat) :
    text (placeRow w name n) = List.replicate (gutter w + 2) ' ' ++ "╭─[ ".toList ++ name ++
      ':' :: Text.ofNat (n + w.first.index) ++ ':' :: Text.ofNat (w.startColumn + 1) ++
      " ]".toList := by
  simp [text, placeRow, gap, frame, Piece.bare]

end Report
end FloatCases
