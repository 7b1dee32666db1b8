import FloatCases.Line
import FloatCases.Proofs.Statement.Reading
import FloatCases.Proofs.Text.Trimming

/-!
The lines that are test cases. Main statement: a line is read as a test case if and only if it is
laid out as one, and then what is read is what the fields of its one layout say.
-/
namespace FloatCases

variable {f : FloatFormat} {modes : ModeSet} {line text : Text} {l : Layout} {x : Testcase}

namespace Layout

/-- What the fields of a test case say: each of them, in its place, stands for what is read. -/
structure Says (f : FloatFormat) (l : Layout) (x : Testcase) : Prop where
  mode : RoundingMode.ofName? l.mode.1 = some x.mode
  input : Literal.canonicalize f l.input.1 = .ok x.input
  output : Literal.canonicalize f l.output.1 = .ok x.output
  errorBound : Literal.canonicalize .f32 l.errorBound.1 = .ok x.errorBound
  flags : FlagSet.parse l.flagList = .ok x.flags
  comment : x.comment = Remark.comment? l.remark

end Layout

namespace Statement

theorem checkMode_eq_ok_iff {s : Span} {m : RoundingMode} :
    checkMode text s = .ok m ↔ RoundingMode.ofName? s.text = some m := by
  unfold checkMode
  cases RoundingMode.ofName? s.text <;> simp

theorem checkLiteral_eq_ok_iff {s : Span} {t : Text} :
    checkLiteral f text s = .ok t ↔ Literal.canonicalize f s.text = .ok t := by
  unfold checkLiteral
  cases Literal.canonicalize f s.text <;> simp

theorem checkFlags_eq_ok_iff {st : Statement} {x : FlagSet} :
    checkFlags text st = .ok x ↔ FlagSet.parse st.flags.text = .ok x := by
  unfold checkFlags
  cases FlagSet.parse st.flags.text <;> simp

theorem check_eq_ok_iff {st : Statement} :
    st.check f text = .ok x ↔
      checkMode text st.mode = .ok x.mode ∧ checkLiteral f text st.input = .ok x.input ∧
      checkLiteral f text st.output = .ok x.output ∧
      checkLiteral .f32 text st.errorBound = .ok x.errorBound ∧
      checkFlags text st = .ok x.flags ∧ st.trimmedComment = x.comment := by
  obtain ⟨mode, input, output, errorBound, flags, comment⟩ := x
  unfold check
  cases checkMode text st.mode <;> cases checkLiteral f text st.input <;>
    cases checkLiteral f text st.output <;> cases checkLiteral .f32 text st.errorBound <;>
    cases checkFlags text st <;>
    simp [bind, Except.bind, pure, Except.pure]

end Statement

namespace Layout

/-- A comment at the end of a trimmed line has no white space at its end. -/
theorem trimmedComment_statement (h : l.text = Text.trim line) :
    l.statement.trimmedComment = Remark.comment? l.remark := by
  have hl : Text.Stops Text.isBlank l.text.reverse := h ▸ Text.stops_reverse_trim line
  have hr := Text.stops_reverse_of_append hl
  simp only [Statement.trimmedComment, statement, Remark.comment?]
  cases hm : l.remark with
  | none => rfl
  | some r =>
    rw [hm, Remark.text, ← List.append_assoc] at hr
    have hc := Text.trimEnd_eq_self (Text.stops_reverse_of_append hr)
    by_cases hn : r.comment = [] <;> simp [hn, hc, Option.filter]

/-- The fields of a trimmed line pass their checks for what they say, and for nothing else. -/
theorem check_statement_eq_ok_iff (h : l.text = Text.trim line) :
    l.statement.check f text = .ok x ↔ l.Says f x := by
  rw [Statement.check_eq_ok_iff, Statement.checkMode_eq_ok_iff, Statement.checkLiteral_eq_ok_iff,
    Statement.checkLiteral_eq_ok_iff, Statement.checkLiteral_eq_ok_iff,
    Statement.checkFlags_eq_ok_iff, trimmedComment_statement h]
  constructor
  · rintro ⟨hm, hi, ho, he, hx, hc⟩
    exact ⟨hm, hi, ho, he, hx, hc.symm⟩
  · rintro ⟨hm, hi, ho, he, hx, hc⟩
    exact ⟨hm, hi, ho, he, hx, hc.symm⟩

theorem text_ne_nil (l : Layout) : l.text ≠ [] := by
  rw [text_eq]
  exact List.cons_ne_nil _ _

theorem not_slashes_isPrefixOf_text (l : Layout) : ['/', '/'].isPrefixOf l.text = false := by
  rw [text_eq]
  rfl

end Layout

namespace Line

theorem ofTestcase_ne (modes : ModeSet) (x : Testcase) :
    ofTestcase modes x ≠ blank ∧ ofTestcase modes x ≠ comment ∧
      ofTestcase modes x ≠ unrecognized := by
  unfold ofTestcase
  split <;> simp

/-- A line that is laid out as a test case is read by its fields. -/
theorem read_of_text_eq (f : FloatFormat) (modes : ModeSet) (h : l.text = Text.trim line) :
    read f modes line = (l.statement.check f (Text.trim line)).map (ofTestcase modes) := by
  have hs := l.not_slashes_isPrefixOf_text
  rw [read, if_neg (h ▸ l.text_ne_nil), if_neg (by rw [← h, hs]; exact Bool.false_ne_true), ← h,
    l.read?_text]

/-- A line is blank, a comment, laid out as a test case, or none of them. -/
theorem read_cases (f : FloatFormat) (modes : ModeSet) (line : Text) :
    (Text.trim line = [] ∧ read f modes line = .ok blank) ∨
    ("//".toList <+: Text.trim line ∧ read f modes line = .ok comment) ∨
    (∃ l : Layout, l.text = Text.trim line) ∨
    (Text.trim line ≠ [] ∧ ¬ "//".toList <+: Text.trim line ∧
      (¬ ∃ l : Layout, l.text = Text.trim line) ∧ read f modes line = .ok unrecognized) := by
  by_cases hb : Text.trim line = []
  · exact Or.inl ⟨hb, by rw [read, if_pos hb]⟩
  by_cases hc : "//".toList <+: Text.trim line
  · have hp : ['/', '/'].isPrefixOf (Text.trim line) = true := List.isPrefixOf_iff_prefix.mpr hc
    exact Or.inr (Or.inl ⟨hc, by rw [read, if_neg hb, if_pos hp]⟩)
  by_cases hl : ∃ l : Layout, l.text = Text.trim line
  · exact Or.inr (Or.inr (Or.inl hl))
  · have hp : ¬ ['/', '/'].isPrefixOf (Text.trim line) = true :=
      fun h => hc (List.isPrefixOf_iff_prefix.mp h)
    have hn : Statement.read? (Text.trim line) = none := by
      cases hr : Statement.read? (Text.trim line) with
      | none => rfl
      | some st =>
        obtain ⟨l, hl', -⟩ := Statement.read?_eq_some_iff.mp hr
        exact absurd ⟨l, hl'⟩ hl
    exact Or.inr (Or.inr (Or.inr ⟨hb, hc, hl, by rw [read, if_neg hb, if_neg hp, hn]⟩))

/-- A line laid out as a test case is refused or read as one, whether that is kept or not. -/
theorem read_of_text_eq_cases (f : FloatFormat) (modes : ModeSet) (h : l.text = Text.trim line) :
    (∃ x, l.Says f x ∧ read f modes line = .ok (ofTestcase modes x)) ∨
    ((¬ ∃ x, l.Says f x) ∧ ∃ e, read f modes line = .error e) := by
  rw [read_of_text_eq f modes h]
  cases hx : l.statement.check f (Text.trim line) with
  | ok x => exact Or.inl ⟨x, (Layout.check_statement_eq_ok_iff h).mp hx, rfl⟩
  | error e =>
    refine Or.inr ⟨?_, e, rfl⟩
    rintro ⟨x, hs⟩
    have hx' : l.statement.check f (Text.trim line) = .ok x :=
      (Layout.check_statement_eq_ok_iff h).mpr hs
    simp [hx] at hx'

theorem read_ne_of_text_eq (h : l.text = Text.trim line) :
    read f modes line ≠ .ok blank ∧ read f modes line ≠ .ok comment ∧
      read f modes line ≠ .ok unrecognized := by
  rcases read_of_text_eq_cases f modes h with ⟨x, -, hx⟩ | ⟨-, e, he⟩
  · have hne := ofTestcase_ne modes x
    simpa [hx] using hne
  · simp [he]

theorem not_prefix_of_text_eq (h : l.text = Text.trim line) : ¬ "//".toList <+: Text.trim line := by
  intro hp
  have hs : ['/', '/'].isPrefixOf (Text.trim line) = true := List.isPrefixOf_iff_prefix.mpr hp
  rw [← h, l.not_slashes_isPrefixOf_text] at hs
  exact Bool.false_ne_true hs

theorem read_eq_blank_iff : read f modes line = .ok blank ↔ Text.trim line = [] := by
  rcases read_cases f modes line with ⟨h, hr⟩ | ⟨h, hr⟩ | ⟨l, h⟩ | ⟨h, -, -, hr⟩
  · simp [h, hr]
  · have hne : Text.trim line ≠ [] := fun hn => by simp [hn] at h
    simp [hne, hr]
  · simp [(read_ne_of_text_eq h).1, ← h, l.text_ne_nil]
  · simp [h, hr]

theorem read_eq_comment_iff :
    read f modes line = .ok comment ↔ "//".toList <+: Text.trim line := by
  rcases read_cases f modes line with ⟨h, hr⟩ | ⟨h, hr⟩ | ⟨l, h⟩ | ⟨-, h, -, hr⟩
  · simp [h, hr]
  · exact ⟨fun _ => h, fun _ => hr⟩
  · exact ⟨fun hr => absurd hr (read_ne_of_text_eq h).2.1,
      fun hp => absurd hp (not_prefix_of_text_eq h)⟩
  · exact ⟨fun hr' => by simp [hr] at hr', fun hp => absurd hp h⟩

theorem read_eq_unrecognized_iff :
    read f modes line = .ok unrecognized ↔
      Text.trim line ≠ [] ∧ ¬ "//".toList <+: Text.trim line ∧
        ¬ ∃ l : Layout, l.text = Text.trim line := by
  rcases read_cases f modes line with ⟨h, hr⟩ | ⟨h, hr⟩ | ⟨l, h⟩ | ⟨hb, hc, hl, hr⟩
  · simp [h, hr]
  · exact ⟨fun hr' => by simp [hr] at hr', fun hn => absurd h hn.2.1⟩
  · exact ⟨fun hr => absurd hr (read_ne_of_text_eq h).2.2, fun hn => absurd ⟨l, h⟩ hn.2.2⟩
  · exact ⟨fun _ => ⟨hb, hc, hl⟩, fun _ => hr⟩

theorem ofTestcase_eq_testcase_iff {y : Testcase} :
    ofTestcase modes y = testcase x ↔ modes.contains x.mode = true ∧ y = x := by
  unfold ofTestcase
  split
  · rename_i hm
    simp only [testcase.injEq]
    exact ⟨fun h => ⟨h ▸ hm, h⟩, fun h => h.2⟩
  · rename_i hm
    simp only [reduceCtorEq, false_iff, not_and]
    rintro hx rfl
    exact hm hx

/-- A test case that is read is what a layout of the line says, for a mode that is kept. -/
theorem read_eq_testcase_iff :
    read f modes line = .ok (testcase x) ↔
      modes.contains x.mode = true ∧ ∃ l : Layout, l.text = Text.trim line ∧ l.Says f x := by
  constructor
  · intro h
    rcases read_cases f modes line with ⟨-, hr⟩ | ⟨-, hr⟩ | ⟨l, hl⟩ | ⟨-, -, -, hr⟩
    · simp [hr] at h
    · simp [hr] at h
    · rcases read_of_text_eq_cases f modes hl with ⟨y, hy, hr⟩ | ⟨-, e, hr⟩
      · obtain ⟨hm, rfl⟩ := ofTestcase_eq_testcase_iff.mp (Except.ok.inj (hr.symm.trans h))
        exact ⟨hm, l, hl, hy⟩
      · simp [hr] at h
    · simp [hr] at h
  · rintro ⟨hm, l, hl, hx⟩
    rw [read_of_text_eq f modes hl, (Layout.check_statement_eq_ok_iff hl).mpr hx]
    exact congrArg Except.ok (ofTestcase_eq_testcase_iff.mpr ⟨hm, rfl⟩)

/--
The kinds of lines by their trimmed text. There is one layout at most, no text of the language is
left without its fields, and a line with a layout stands for what the fields say, or is refused
where a field says nothing.
-/
theorem read_by_layout (f : FloatFormat) (modes : ModeSet) (line : Text) :
    (read f modes line = .ok blank ↔ Text.trim line = []) ∧
    (read f modes line = .ok comment ↔ "//".toList <+: Text.trim line) ∧
    (read f modes line = .ok unrecognized ↔
      Text.trim line ≠ [] ∧ ¬ "//".toList <+: Text.trim line ∧
        ¬ ∃ l : Layout, l.text = Text.trim line) ∧
    (Rule.testcase.parse? (Text.trim line) ≠ none → Statement.read? (Text.trim line) ≠ none) ∧
    (∀ l l' : Layout, l.text = Text.trim line → l'.text = Text.trim line → l = l') ∧
    ∀ l : Layout, l.text = Text.trim line →
      (∀ x, l.Says f x → read f modes line =
        .ok (if modes.contains x.mode then testcase x else filtered x.mode)) ∧
      ((¬ ∃ x, l.Says f x) → ∃ e, read f modes line = .error e) := by
  refine ⟨read_eq_blank_iff, read_eq_comment_iff, read_eq_unrecognized_iff, fun hp => ?_,
    fun l l' h h' => Layout.text_injective (h.trans h'.symm), fun l h => ⟨fun x hx => ?_, ?_⟩⟩
  · obtain ⟨l, hl⟩ := Layout.exists_text_eq_of_parse? hp
    rw [← hl, l.read?_text]
    exact Option.some_ne_none _
  · rw [read_of_text_eq f modes h, (Layout.check_statement_eq_ok_iff h).mpr hx]
    rfl
  · intro hn
    rcases read_of_text_eq_cases f modes h with ⟨x, hx, -⟩ | ⟨-, he⟩
    · exact absurd ⟨x, hx⟩ hn
    · exact he

/-- A test case with spacing of several kinds, two flags and a comment. -/
theorem read_by_layout_spaced :
    read .f32 .all " T( RN,0x1p+0L\t,inf,0x0p+0,INEXACT |OVERFLOW)//  exact ".toList =
      .ok (testcase ⟨.nearest, "1".toList, "inf".toList, "0".toList,
        .union (.only .inexact) (.union (.only .overflow) .empty), some "exact".toList⟩) := by
  let tight : Break := ⟨⟨[], by simp⟩, ⟨[], by simp⟩⟩
  let l : Layout := {
    opening := ⟨[' '], List.all_eq_true.mp rfl⟩
    mode := ⟨"RN".toList, by decide, List.all_eq_true.mp rfl⟩
    afterMode := tight
    input := ⟨"0x1p+0L".toList, by decide, List.all_eq_true.mp rfl⟩
    afterInput := ⟨⟨['\t'], List.all_eq_true.mp rfl⟩, ⟨[], by simp⟩⟩
    output := ⟨"inf".toList, by decide, List.all_eq_true.mp rfl⟩
    afterOutput := tight
    errorBound := ⟨"0x0p+0".toList, by decide, List.all_eq_true.mp rfl⟩
    afterErrorBound := tight
    flag := ⟨"INEXACT".toList, by decide, List.all_eq_true.mp rfl⟩
    flags := [(⟨⟨[' '], List.all_eq_true.mp rfl⟩, ⟨[], by simp⟩⟩,
      ⟨"OVERFLOW".toList, by decide, List.all_eq_true.mp rfl⟩)]
    closing := tight
    remark := some ⟨⟨[' ', ' '], List.all_eq_true.mp rfl⟩, "exact".toList,
      Text.stops_cons.mpr (by decide)⟩ }
  let x : Testcase := ⟨.nearest, "1".toList, "inf".toList, "0".toList,
    .union (.only .inexact) (.union (.only .overflow) .empty), some "exact".toList⟩
  exact ((read_by_layout .f32 .all _).2.2.2.2.2 l rfl).1 x ⟨rfl, rfl, rfl, rfl, rfl, rfl⟩

end Line
end FloatCases
