import FloatCases.Table
import FloatCases.Proofs.Flags.Display
import FloatCases.Proofs.Text.Pieces
import FloatCases.Proofs.Text.Trimming

/-!
The characters of rows. Main statements: a row has no line feed if no field of its test case has
one, it starts with a point, and it does not end in white space.
-/
namespace FloatCases

variable {c : Char} {s : Text} {ws : List Nat} {ts : List Testcase} {t : Testcase}

/-- No field of a test case has a line feed. -/
structure Testcase.OneLine (t : Testcase) : Prop where
  input : '\n' ∉ t.input
  output : '\n' ∉ t.output
  errorBound : '\n' ∉ t.errorBound
  comment : ∀ s ∈ t.comment, '\n' ∉ s

theorem Text.mem_of_mem_squeeze (h : c ∈ Text.squeeze s) : c = ' ' ∨ c ∈ s := by
  rcases Text.mem_intercalate h with h | ⟨w, hw, hc⟩
  · exact Or.inl (List.mem_singleton.mp h)
  · exact Or.inr (Text.mem_of_mem_splitOn (List.mem_filter.mp hw).1 hc)

theorem FlagSet.newline_not_mem_display (x : FlagSet) : '\n' ∉ x.display := by
  intro h
  rcases mem_display h with h | h <;> exact absurd h (by decide)

namespace Table

theorem newline_not_mem_signed (h : '\n' ∉ s) : '\n' ∉ signed s := by
  unfold signed
  split <;> simp [h]

theorem newline_not_mem_commentCell {comment : Option Text} (h : ∀ s ∈ comment, '\n' ∉ s) :
    '\n' ∉ commentCell comment := by
  cases comment with
  | none => exact List.not_mem_nil
  | some s =>
    intro hc
    rcases List.mem_append.mp hc with hc | hc
    · exact absurd hc (by decide)
    · rcases Text.mem_of_mem_squeeze hc with hc | hc
      · exact absurd hc (by decide)
      · exact h s rfl hc

theorem newline_not_mem_cells (ht : t.OneLine) : ∀ cell ∈ cells t, '\n' ∉ cell := by
  have hm : '\n' ∉ t.mode.name ++ [','] := by cases t.mode <;> decide
  simp only [cells, List.forall_mem_cons]
  exact ⟨by decide, hm, newline_not_mem_signed ht.input, newline_not_mem_signed ht.output,
    newline_not_mem_signed ht.errorBound, t.flags.newline_not_mem_display, by decide,
    newline_not_mem_commentCell ht.comment, by simp⟩

/-- A padded row has the characters of its cells and spaces. -/
theorem mem_align {row : List Text} (h : c ∈ align ws row) : c = ' ' ∨ ∃ cell ∈ row, c ∈ cell := by
  rcases Text.mem_intercalate (Text.mem_of_mem_trimEnd h) with h | ⟨w, hw, hc⟩
  · exact Or.inl (List.mem_singleton.mp h)
  · obtain ⟨i, hi⟩ := List.mem_iff_getElem?.mp hw
    obtain ⟨n, cell, -, hcell, rfl⟩ := List.getElem?_zipWith_eq_some.mp hi
    rcases List.mem_append.mp hc with hc | hc
    · exact Or.inr ⟨cell, List.mem_of_getElem? hcell, hc⟩
    · exact Or.inl (List.eq_of_mem_replicate hc)

/-- Rows of test cases of one line are of one line. -/
theorem newline_not_mem_rows (h : ∀ t ∈ ts, t.OneLine) : ∀ row ∈ rows ts, '\n' ∉ row := by
  intro row hrow hn
  simp only [rows, List.map_map] at hrow
  obtain ⟨t, ht, rfl⟩ := List.mem_map.mp hrow
  rcases mem_align hn with hs | ⟨cell, hcell, hc⟩
  · exact absurd hs (by decide)
  · exact newline_not_mem_cells (h t ht) cell hcell hc

/-- A padded row starts as its first cell does. -/
theorem exists_align_eq (hc : Text.isBlank c = false) (n : Nat) (ws : List Nat) (cell : Text)
    (row : List Text) : ∃ s, align (n :: ws) ((c :: cell) :: row) = c :: s := by
  obtain ⟨s, hs⟩ := Text.exists_intercalate_cons [' '] ((c :: cell).rightpad n ' ')
    (List.zipWith (fun w cell => cell.rightpad w ' ') ws row)
  rw [align, List.zipWith_cons_cons, hs]
  exact ⟨_, Text.trimEnd_cons hc _⟩

theorem exists_eq_of_mem_rows {row : Text} (h : row ∈ rows ts) : ∃ s, row = '.' :: s := by
  simp only [rows, List.map_map] at h
  obtain ⟨t, -, rfl⟩ := List.mem_map.mp h
  exact exists_align_eq (by decide) _ _ _ _

theorem stops_reverse_of_mem_rows {row : Text} (h : row ∈ rows ts) :
    Text.Stops Text.isBlank row.reverse := by
  simp only [rows, List.map_map] at h
  obtain ⟨t, -, rfl⟩ := List.mem_map.mp h
  exact Text.stops_reverse_trimEnd _

end Table
end FloatCases
