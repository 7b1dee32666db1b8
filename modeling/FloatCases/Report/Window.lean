import FloatCases.Fault
import FloatCases.Text.Width

/-!
The rows of a text that a range of bytes starts and ends in, and the characters that it takes up.
-/
namespace FloatCases

/-- A text cut after each of its line separators; a carriage return and a line feed are one. -/
def Text.rows : Text → List Text
  | [] => []
  | '\r' :: '\n' :: s => ['\r', '\n'] :: rows s
  | c :: s =>
    if c ∈ ['\r', '\n', '\x0b', '\x0c', '\u0085', '\u2028', '\u2029'] then [c] :: rows s
    else
      match rows s with
      | [] => [[c]]
      | r :: rest => (c :: r) :: rest

/-- A row of a text, with the number of rows and the number of characters before it. -/
structure SourceRow where
  index : Nat
  offset : Nat
  text : Text
  deriving DecidableEq, Repr

namespace SourceRow

/-- A row as it is shown: without white space at its end. -/
def shown (r : SourceRow) : Text :=
  Text.trimEnd r.text

/-- The number of terminal columns of the character in a column, one past the end of the row. -/
def widthAt (r : SourceRow) (col : Nat) : Nat :=
  match r.shown[col]? with
  | some c => Text.width c col
  | none => 1

/-- A row with another row put before the text. -/
def after (r : SourceRow) (before : Text) : SourceRow :=
  ⟨r.index + 1, r.offset + before.length, r.text⟩

/-- The row that a byte of a text lies in, and the number of bytes in it before that byte. -/
def find : List Text → Nat → SourceRow × Nat
  | [], n => (⟨0, 0, []⟩, n)
  | [r], n => (⟨0, 0, r⟩, n)
  | r :: rest, n =>
    if n < Text.byteSize r then (⟨0, 0, r⟩, n)
    else ((find rest (n - Text.byteSize r)).1.after r, (find rest (n - Text.byteSize r)).2)

end SourceRow

/-- What a report shows of a faulty text. -/
structure Window where
  /-- The row in which the part to blame starts. -/
  first : SourceRow
  /-- The row in which the part to blame ends. -/
  last : SourceRow
  /-- The number of characters of the text before the part to blame. -/
  start : Nat
  /-- The number of characters of the text before the end of the part to blame. -/
  stop : Nat
  deriving DecidableEq, Repr

namespace Window

/-- What a report shows of the text of a fault. -/
def ofFault (e : Fault) : Window :=
  let rows := Text.rows e.text
  let (first, byte) := SourceRow.find rows e.start
  let start := first.offset + (Text.takeBytes first.text byte).length
  if e.stop ≤ e.start then ⟨first, first, start, start⟩
  else
    let (last, byte) := SourceRow.find rows (e.stop - 1)
    ⟨first, last, start, last.offset + (Text.takeBytes last.text (byte + 1)).length⟩

/-- Whether the part to blame runs over several rows. -/
def isSplit (w : Window) : Bool :=
  w.first.index ≠ w.last.index

/-- The column of the first character to blame. -/
def startColumn (w : Window) : Nat :=
  w.start - w.first.offset

/-- The column after that of the last character to blame. -/
def stopColumn (w : Window) : Nat :=
  w.stop - w.last.offset

/-- The column from which the message hangs if the part to blame lies in one row. -/
def middle (w : Window) : Nat :=
  (w.start + w.stop) / 2 - w.first.offset

/-- Whether the character in a column of a row is to blame. -/
def covers (w : Window) (r : SourceRow) (col : Nat) : Bool :=
  w.start ≤ r.offset + col && r.offset + col < w.stop

end Window
end FloatCases
