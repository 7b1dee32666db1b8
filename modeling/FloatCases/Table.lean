import FloatCases.Line

/-!
Test cases as the rows of a table with aligned columns.
-/
namespace FloatCases.Table

/-- A literal and a comma, after a space unless it has a minus sign, so that signs line up. -/
def signed (literal : Text) : Text :=
  (if literal.head? = some '-' then [] else [' ']) ++ literal ++ [',']

/-- The cell of a comment, empty if there is none. -/
def commentCell : Option Text → Text
  | none => []
  | some comment => "// ".toList ++ Text.squeeze comment

/-- The number of columns. -/
def columns : Nat :=
  8

/-- The cells of a test case. -/
def cells (t : Testcase) : List Text :=
  [".\x7b".toList, t.mode.name ++ [','], signed t.input, signed t.output, signed t.errorBound,
    t.flags.display, "\x7d,".toList, commentCell t.comment]

/-- The length of the longest cell of a column. -/
def columnWidth (rows : List (List Text)) (j : Nat) : Nat :=
  (rows.map fun row => (row.getD j []).length).foldr max 0

/-- The lengths of the longest cells of the columns. -/
def widths (rows : List (List Text)) : List Nat :=
  (List.range columns).map (columnWidth rows)

/-- A row with its cells padded to given lengths, without white space at its end. -/
def align (ws : List Nat) (row : List Text) : Text :=
  Text.trimEnd (List.intercalate [' '] (List.zipWith (fun w cell => cell.rightpad w ' ') ws row))

/-- The rows of a table, one for each test case. -/
def rows (ts : List Testcase) : List Text :=
  let table := ts.map cells
  table.map (align (widths table))

theorem length_cells (t : Testcase) : (cells t).length = columns :=
  rfl

@[simp]
theorem length_rows (ts : List Testcase) : (rows ts).length = ts.length := by
  simp [rows]

end FloatCases.Table
