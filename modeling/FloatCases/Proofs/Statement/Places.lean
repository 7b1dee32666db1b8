import FloatCases.Proofs.Statement.Reading
import FloatCases.Proofs.Text.Trimming

/-!
The places of the parts of a test case. Main statements: every field and every flag lies in the line
where its place says, and the pieces of a flag list between bars are its flags up to white space.
-/
namespace FloatCases

open Grammar (isSpacing isFieldChar)

/-- A part lies in a text at its place: its start is the number of bytes before it. -/
def Span.LiesIn (s : Span) (t : Text) : Prop :=
  ∃ pre post, t = pre ++ s.text ++ post ∧ s.start = Text.byteSize pre

namespace Span

variable {s : Span} {t u : Text}

theorem LiesIn.append (h : s.LiesIn t) (u : Text) : s.LiesIn (t ++ u) := by
  obtain ⟨pre, post, rfl, hs⟩ := h
  exact ⟨pre, post ++ u, by simp, hs⟩

/-- The range of bytes of a part gives back the part. -/
theorem LiesIn.slice (h : s.LiesIn t) : t.slice s.start s.stop = s.text := by
  obtain ⟨pre, post, rfl, hs⟩ := h
  rw [Span.stop, hs]
  exact Text.slice_append pre s.text post

end Span

/-- A field of a test case. -/
inductive Field where
  | mode
  | input
  | output
  | errorBound
  | flags
  deriving DecidableEq, Repr

/-- The fields in the order in which they are written and checked. -/
def Field.all : List Field :=
  [mode, input, output, errorBound, flags]

theorem Field.mem_all (x : Field) : x ∈ all := by
  cases x <;> decide

namespace Layout

variable {flags : List (Break × Word isFieldChar)} {l : Layout} {s : Span} {c : Char}
  {pre : Text}

/-- The place and the text of a field. -/
def span (l : Layout) : Field → Span
  | .mode => l.statement.mode
  | .input => l.statement.input
  | .output => l.statement.output
  | .errorBound => l.statement.errorBound
  | .flags => l.statement.flags

theorem span_text_ne_nil (l : Layout) (x : Field) : (l.span x).text ≠ [] := by
  cases x with
  | mode => exact l.mode.2.1
  | input => exact l.input.2.1
  | output => exact l.output.2.1
  | errorBound => exact l.errorBound.2.1
  | flags => exact List.append_ne_nil_of_left_ne_nil l.flag.2.1 _

/-- Every field lies in the line at its place. -/
theorem span_liesIn (l : Layout) (x : Field) : (l.span x).LiesIn l.text := by
  rw [text_eq]
  cases x with
  | mode =>
    refine ⟨l.beforeMode, l.afterMode.text ',' ++ l.fromInput, ?_, rfl⟩
    simp [span, statement, beforeMode, fromMode]
  | input =>
    refine ⟨l.beforeInput, l.afterInput.text ',' ++ l.fromOutput, ?_, rfl⟩
    simp [span, statement, beforeInput, beforeMode, fromMode, fromInput]
  | output =>
    refine ⟨l.beforeOutput, l.afterOutput.text ',' ++ l.fromErrorBound, ?_, rfl⟩
    simp [span, statement, beforeOutput, beforeInput, beforeMode, fromMode, fromInput, fromOutput]
  | errorBound =>
    refine ⟨l.beforeErrorBound, l.afterErrorBound.text ',' ++ l.fromFlags, ?_, rfl⟩
    simp [span, statement, beforeErrorBound, beforeOutput, beforeInput, beforeMode, fromMode,
      fromInput, fromOutput, fromErrorBound]
  | flags =>
    refine ⟨l.beforeFlags, l.afterFlags, ?_, rfl⟩
    rw [← text_eq, text, List.append_assoc]
    rfl

theorem map_text_flagSpans (pre : Text) (flags : List (Break × Word isFieldChar)) :
    (flagSpans pre flags).map (·.text) = flags.map (·.2.1) := by
  induction flags generalizing pre with
  | nil => rfl
  | cons x flags ih => simp [flagSpans, ih]

theorem map_text_flagNames (l : Layout) :
    l.statement.flagNames.map (·.text) = l.flag.1 :: l.flags.map (·.2.1) := by
  simp [statement, map_text_flagSpans]

theorem flagName_text_ne_nil (hs : s ∈ l.statement.flagNames) : s.text ≠ [] := by
  have ht : s.text ∈ l.flag.1 :: l.flags.map (·.2.1) :=
    l.map_text_flagNames ▸ List.mem_map_of_mem hs
  rcases List.mem_cons.mp ht with h | h
  · exact h ▸ l.flag.2.1
  · obtain ⟨x, -, hx⟩ := List.mem_map.mp h
    exact hx ▸ x.2.2.1

/-- The flags after the first lie behind one another. -/
theorem exists_barred_eq_append (hs : s ∈ flagSpans pre flags) :
    ∃ a b, barred flags = a ++ s.text ++ b ∧ s.start = Text.byteSize (pre ++ a) := by
  induction flags generalizing pre with
  | nil => exact absurd hs List.not_mem_nil
  | cons x flags ih =>
    have hb : barred (x :: flags) = x.1.text '|' ++ x.2.1 ++ barred flags := List.flatMap_cons
    rcases List.mem_cons.mp hs with rfl | hs
    · exact ⟨x.1.text '|', barred flags, hb, rfl⟩
    · obtain ⟨a, b, he, hn⟩ := ih hs
      exact ⟨x.1.text '|' ++ x.2.1 ++ a, b, by simp [hb, he], by simp [hn]⟩

/-- Every flag lies in the flag list. -/
theorem exists_flagList_eq (hs : s ∈ l.statement.flagNames) :
    ∃ a b, l.flagList = a ++ s.text ++ b ∧ s.start = Text.byteSize (l.beforeFlags ++ a) := by
  rcases List.mem_cons.mp hs with rfl | hs
  · exact ⟨[], barred l.flags, rfl, by simp⟩
  · obtain ⟨a, b, he, hn⟩ := exists_barred_eq_append hs
    exact ⟨l.flag.1 ++ a, b, by simp [flagList, he], by simp [hn]⟩

/-- Every flag lies in the line at its place. -/
theorem flagName_liesIn (hs : s ∈ l.statement.flagNames) : s.LiesIn l.text := by
  obtain ⟨a, b, he, hn⟩ := exists_flagList_eq hs
  have hb : s.LiesIn (l.beforeFlags ++ l.flagList) := ⟨l.beforeFlags ++ a, b, by simp [he], hn⟩
  exact (hb.append _).append _

theorem isBlank_of_isSpacing (h : isSpacing c = true) : Text.isBlank c = true := by
  simp only [isSpacing, Bool.or_eq_true, decide_eq_true_eq] at h
  rcases h with rfl | rfl <;> decide

theorem bar_not_mem_gap (gap : Gap) : '|' ∉ gap.1 := by
  intro h
  exact absurd (gap.2 _ h) (by decide)

theorem bar_not_mem_word (w : Word isFieldChar) : '|' ∉ w.1 := by
  intro h
  exact absurd (w.2.2 _ h) (by decide)

theorem trim_gap_append (gap : Gap) (w : Text) : Text.trim (gap.1 ++ w) = Text.trim w :=
  Text.trim_append_of_isBlank (fun c hc => isBlank_of_isSpacing (gap.2 c hc)) w

theorem trim_append_gap (gap : Gap) (w : Text) : Text.trim (w ++ gap.1) = Text.trim w :=
  Text.trim_append_isBlank (fun c hc => isBlank_of_isSpacing (gap.2 c hc)) w

/-- A flag with spacing before it and the flags after it, split at the bars. -/
theorem map_trim_splitOn_barred (gap : Gap) (w : Word isFieldChar)
    (flags : List (Break × Word isFieldChar)) :
    (List.splitOn '|' (gap.1 ++ w.1 ++ barred flags)).map Text.trim =
      Text.trim w.1 :: flags.map (fun x => Text.trim x.2.1) := by
  -- the spacing behind a bar goes with the next flag, so it varies along the list
  induction flags generalizing gap w with
  | nil =>
    have hbar : '|' ∉ gap.1 ++ w.1 := by simp [bar_not_mem_gap, bar_not_mem_word]
    rw [barred, List.flatMap_nil, List.append_nil, List.splitOn_eq_singleton hbar]
    simp [trim_gap_append]
  | cons x flags ih =>
    have hbar : '|' ∉ gap.1 ++ w.1 ++ x.1.before.1 := by simp [bar_not_mem_gap, bar_not_mem_word]
    have hb : gap.1 ++ w.1 ++ barred (x :: flags) =
        gap.1 ++ w.1 ++ x.1.before.1 ++ '|' :: (x.1.after.1 ++ x.2.1 ++ barred flags) := by
      simp [barred, Break.text]
    rw [hb, List.splitOn_append_cons_self_of_not_mem hbar, List.map_cons, ih, trim_append_gap,
      trim_gap_append, List.map_cons]

/-- The pieces of a flag list between bars are its flags up to white space. -/
theorem map_trim_splitOn_flagList (l : Layout) :
    (List.splitOn '|' l.flagList).map Text.trim =
      l.statement.flagNames.map (fun s => Text.trim s.text) := by
  have h := map_trim_splitOn_barred ⟨[], by simp⟩ l.flag l.flags
  have ht : l.statement.flagNames.map (fun s => Text.trim s.text) =
      (l.statement.flagNames.map (·.text)).map Text.trim := by simp
  rw [ht, map_text_flagNames, flagList]
  simpa [Function.comp_def] using h

/-- A flag list is a zero up to white space if it has one flag that is. -/
theorem trim_flagList_eq_zero_iff (l : Layout) :
    Text.trim l.flagList = ['0'] ↔ l.flags = [] ∧ Text.trim l.flag.1 = ['0'] := by
  rw [flagList]
  cases l.flags with
  | nil => simp [barred]
  | cons x flags =>
    have hbar : '|' ∈ l.flag.1 ++ barred (x :: flags) := by simp [barred, Break.text]
    have ht : '|' ∈ Text.trim (l.flag.1 ++ barred (x :: flags)) :=
      Text.mem_trim_of_mem hbar (by decide)
    constructor
    · intro h
      exact absurd (h ▸ ht) (by decide)
    · rintro ⟨⟨⟩, -⟩

end Layout
end FloatCases
