import FloatCases.Proofs.Text.Trimming
import FloatCases.Report.Window

/-!
The place of the part to blame in the rows of a text. Main statement: a part without white space
lies in one row, and a report shows this row with the characters of the part to blame.
-/
namespace FloatCases

variable {c : Char} {s w r before after : Text} {above below rs : List Text} {k : Nat} {e : Fault}

namespace Text

/-- The characters that end a row. -/
def rowEnds : List Char :=
  ['\r', '\n', '\x0b', '\x0c', '\u0085', '\u2028', '\u2029']

theorem isBlank_of_mem_rowEnds (h : c ∈ rowEnds) : isBlank c = true :=
  List.all_eq_true.mp (rfl : rowEnds.all isBlank = true) c h

theorem rows_cons_of_not_mem (hc : c ∉ rowEnds) (s : Text) :
    rows (c :: s) = (c :: (rows s).headD []) :: (rows s).tail := by
  rw [rows]
  · rw [← rowEnds, if_neg hc]
    cases rows s <;> rfl
  · rintro s' rfl -
    exact hc (by decide)

/-- A character is a row of its own or goes with the row behind it. -/
theorem rows_cons (c : Char) (s : Text) :
    rows (c :: s) = [c] :: rows s ∨
      rows (c :: s) = (c :: (rows s).headD []) :: (rows s).tail := by
  by_cases hc : c ∈ rowEnds
  · by_cases hs : ∃ s', c = '\r' ∧ s = '\n' :: s'
    · obtain ⟨s', rfl, rfl⟩ := hs
      have hn : rows ('\n' :: s') = ['\n'] :: rows s' := by
        rw [rows, ← rowEnds, if_pos (by decide)]
        simp
      exact Or.inr (by rw [rows, hn]; rfl)
    · left
      rw [rows]
      · rw [← rowEnds, if_pos hc]
      · exact fun s' h h' => hs ⟨s', h, h'⟩
  · exact Or.inr (rows_cons_of_not_mem hc s)

/-- The rows of a text make up the text. -/
theorem flatten_rows (s : Text) : (rows s).flatten = s := by
  induction s with
  | nil => rfl
  | cons c s ih =>
    rcases rows_cons c s with h | h
    · rw [h, List.flatten_cons, ih]
      rfl
    · rw [h]
      cases hs : rows s with
      | nil =>
        rw [hs] at ih
        simpa using ih
      | cons r rs =>
        rw [hs] at ih
        simpa using ih

/-- Characters that are not white space stay in one row. -/
theorem exists_rows_append_eq (hne : w ≠ []) (hw : ∀ c ∈ w, isBlank c = false) (s : Text) :
    ∃ after below, rows (w ++ s) = (w ++ after) :: below := by
  induction w with
  | nil => exact absurd rfl hne
  | cons c w ih =>
    obtain ⟨hc, hw⟩ := List.forall_mem_cons.mp hw
    have hn : c ∉ rowEnds := fun h => by simp [isBlank_of_mem_rowEnds h] at hc
    rw [List.cons_append, rows_cons_of_not_mem hn]
    by_cases hw' : w = []
    · exact ⟨_, _, by rw [hw']; rfl⟩
    · obtain ⟨after, below, he⟩ := ih hw' hw
      exact ⟨after, below, by rw [he]; rfl⟩

/-- A part without white space lies in one row, behind the rows above and a part of its own. -/
theorem exists_rows_eq (hne : w ≠ []) (hw : ∀ c ∈ w, isBlank c = false) (pre post : Text) :
    ∃ above before after below, pre = above.flatten ++ before ∧
      rows (pre ++ (w ++ post)) = above ++ (before ++ w ++ after) :: below := by
  induction pre with
  | nil =>
    obtain ⟨after, below, he⟩ := exists_rows_append_eq hne hw post
    exact ⟨[], [], after, below, rfl, he⟩
  | cons c pre ih =>
    obtain ⟨above, before, after, below, rfl, he⟩ := ih
    rcases rows_cons c (above.flatten ++ before ++ (w ++ post)) with h | h
    · exact ⟨[c] :: above, before, after, below, rfl, by rw [List.cons_append, h, he]; rfl⟩
    · rw [List.cons_append, h, he]
      cases above with
      | nil => exact ⟨[], c :: before, after, below, rfl, rfl⟩
      | cons a above => exact ⟨(c :: a) :: above, before, after, below, rfl, rfl⟩

end Text

namespace SourceRow

theorem exists_mem_of_mem_find (h : c ∈ (find rs k).1.text) : ∃ r ∈ rs, c ∈ r := by
  induction rs generalizing k with
  | nil => simp [find] at h
  | cons r rs ih =>
    cases rs with
    | nil => exact ⟨r, List.mem_cons_self, h⟩
    | cons r' rs =>
      simp only [find] at h
      split at h
      · exact ⟨r, List.mem_cons_self, h⟩
      · obtain ⟨q, hq, hc⟩ := ih h
        exact ⟨q, List.mem_cons_of_mem r hq, hc⟩

/-- What is found in the rows of a text belongs to the text. -/
theorem mem_of_mem_find (h : c ∈ (find (Text.rows s) k).1.text) : c ∈ s := by
  rw [← Text.flatten_rows s]
  exact List.mem_flatten.mpr (exists_mem_of_mem_find h)

end SourceRow

namespace Window

/-- The two rows that are shown are found in the text. -/
theorem exists_find_eq (e : Fault) :
    (∃ k, (SourceRow.find (Text.rows e.text) k).1 = (ofFault e).first) ∧
      ∃ k, (SourceRow.find (Text.rows e.text) k).1 = (ofFault e).last := by
  unfold ofFault
  split <;> exact ⟨⟨_, rfl⟩, ⟨_, rfl⟩⟩

variable {col : Nat}

end Window
end FloatCases
