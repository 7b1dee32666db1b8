import FloatCases.Conversion
import FloatCases.Proofs.Text.Lines

/-!
What ends the lines of a file. Main statement: the conversion of a file is the same with carriage
returns before its line feeds, and with a line feed after its last line.
-/
namespace FloatCases.Conversion

variable {s t : Text}

/-- A conversion depends on a file by its lines alone. -/
theorem convert_congr (h : Text.lines s = Text.lines t) (o : Options) :
    convert o s = convert o t := by
  have hf : formatFor o s = formatFor o t := by rw [formatFor, formatFor, h]
  have hr : reading o s = reading o t := by rw [reading, reading, hf, h]
  have ho : ∀ r, ofReading o s r = ofReading o t r := by
    intro r
    rw [ofReading, ofReading, hf, h]
  simp only [convert, hr, ho]

/--
The outcome of a conversion, be it a listing or a fault, does not depend on how the lines end: each
line feed of a file may have a carriage return before it, and the last line may have no line feed.
-/
theorem convert_terminators (o : Options) :
    (∀ s, '\r' ∉ s → convert o (Text.withReturns s) = convert o s) ∧
      ∀ s, s ≠ [] → s.getLast? ≠ some '\n' → s.getLast? ≠ some '\r' →
        convert o (s ++ ['\n']) = convert o s := by
  constructor
  · intro s hr
    exact convert_congr (Text.lines_withReturns hr) o
  · intro s hne hn hr
    have hopen : ¬ Text.Closed s := not_or.mpr ⟨hne, hn⟩
    exact convert_congr (Text.lines_append_newline hopen hr) o

/-- A file with a comment and a test case, and a file whose only line is refused. -/
theorem convert_terminators_unended :
    let o : Options := ⟨none, .all, "gen".toList⟩
    '\r' ∉ "// a\nT(RU, inf, 0x1p+9L, 0x0p+0, 0)\n".toList ∧
      convert o "// a\r\nT(RU, inf, 0x1p+9L, 0x0p+0, 0)\r\n".toList =
        convert o "// a\nT(RU, inf, 0x1p+9L, 0x0p+0, 0)\n".toList ∧
      convert o "T(RX, inf, 0, 1, 0)\n".toList = convert o "T(RX, inf, 0, 1, 0)".toList := by
  intro o
  have hr : '\r' ∉ "// a\nT(RU, inf, 0x1p+9L, 0x0p+0, 0)\n".toList := by decide
  have hs : Text.withReturns "// a\nT(RU, inf, 0x1p+9L, 0x0p+0, 0)\n".toList =
      "// a\r\nT(RU, inf, 0x1p+9L, 0x0p+0, 0)\r\n".toList := by decide
  have ht : "T(RX, inf, 0, 1, 0)".toList ++ ['\n'] = "T(RX, inf, 0, 1, 0)\n".toList := by decide
  obtain ⟨hreturns, hnewline⟩ := convert_terminators o
  rw [← hs, ← ht]
  exact ⟨hr, hreturns _ hr, hnewline _ (by decide) (by decide) (by decide)⟩

end FloatCases.Conversion
