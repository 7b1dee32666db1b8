import FloatCases.Line

/-!
What the options change when a line is read. Main statements: with other modes a test case is kept
or not and all else stays, with another format its literals are spelled in another way and all else
stays, and a fault stays with all of them.
-/
namespace FloatCases

variable {f g : FloatFormat} {modes modes' : ModeSet} {line line' text : Text} {e : Fault}

/-- A test case without the literals that are spelled for the format of the file. -/
def Testcase.outline (t : Testcase) : Testcase :=
  { t with input := [], output := [] }

namespace Statement

/-- A literal is refused for all formats or for none. -/
theorem checkLiteral_formats (f g : FloatFormat) (text : Text) (s : Span) :
    (∃ t u, checkLiteral f text s = .ok t ∧ checkLiteral g text s = .ok u) ∨
      ∃ e, checkLiteral f text s = .error e ∧ checkLiteral g text s = .error e := by
  unfold checkLiteral Literal.canonicalize
  cases Literal.read? s.text with
  | none => exact Or.inr ⟨_, rfl, rfl⟩
  | some l => exact Or.inl ⟨_, _, rfl, rfl⟩

/-- The checks of a test case give the same for all formats, up to the spelling of literals. -/
theorem map_outline_check (f g : FloatFormat) (text : Text) (st : Statement) :
    (st.check f text).map Testcase.outline = (st.check g text).map Testcase.outline := by
  unfold check
  cases checkMode text st.mode with
  | error e => rfl
  | ok mode =>
    rcases checkLiteral_formats f g text st.input with ⟨i, i', hi, hi'⟩ | ⟨e, he, he'⟩
    · rcases checkLiteral_formats f g text st.output with ⟨o, o', ho, ho'⟩ | ⟨e, he, he'⟩
      · rw [hi, hi', ho, ho']
        cases checkLiteral .f32 text st.errorBound with
        | error e => rfl
        | ok b => cases checkFlags text st <;> rfl
      · rw [hi, hi', he, he']
        rfl
    · rw [he, he']
      rfl

end Statement

namespace Line

/-- Whether a line is neither a test case that is kept nor one that is left out. -/
def isPassed : Line → Bool
  | blank | comment | unrecognized => true
  | filtered _ | testcase _ => false

theorem isPassed_iff {kind : Line} :
    kind.isPassed = true ↔ kind.testcase? = none ∧ kind.isFiltered = false := by
  cases kind <;> simp [isPassed, testcase?, isFiltered]

/-- A line as it is when the test cases are kept for some modes only. -/
def restrict (modes : ModeSet) : Line → Line
  | testcase t => ofTestcase modes t
  | kind => kind

/-- A line without what depends on the format of the file. -/
def outline : Line → Line
  | testcase t => testcase t.outline
  | kind => kind

theorem restrict_eq_unrecognized_iff {kind : Line} :
    kind.restrict modes = unrecognized ↔ kind = unrecognized := by
  cases kind with
  | testcase t =>
    simp only [restrict, ofTestcase]
    split <;> simp
  | _ => simp [restrict]

theorem outline_eq_unrecognized_iff {kind : Line} :
    kind.outline = unrecognized ↔ kind = unrecognized := by
  cases kind <;> simp [outline]

theorem isFiltered_outline (kind : Line) : kind.outline.isFiltered = kind.isFiltered := by
  cases kind <;> rfl

theorem outline_ofTestcase (modes : ModeSet) (t : Testcase) :
    (ofTestcase modes t).outline = ofTestcase modes t.outline :=
  apply_ite outline (modes.contains t.mode = true) _ _

theorem ofTestcase_all (t : Testcase) : ofTestcase .all t = testcase t :=
  if_pos (by simp [ModeSet.all])

/-- A line is passed over whatever the options are, or is a statement to check. -/
theorem read_cases_options (line : Text) :
    (∃ kind : Line, kind.isPassed = true ∧ ∀ f modes, read f modes line = .ok kind) ∨
      ∃ st : Statement, ∀ f modes,
        read f modes line = (st.check f (Text.trim line)).map (ofTestcase modes) := by
  unfold read
  by_cases hb : Text.trim line = []
  · exact Or.inl ⟨blank, rfl, fun _ _ => if_pos hb⟩
  by_cases hc : ['/', '/'].isPrefixOf (Text.trim line) = true
  · exact Or.inl ⟨comment, rfl, fun _ _ => by rw [if_neg hb, if_pos hc]⟩
  simp only [if_neg hb, if_neg hc]
  cases Statement.read? (Text.trim line) with
  | none => exact Or.inl ⟨unrecognized, rfl, fun _ _ => rfl⟩
  | some st => exact Or.inr ⟨st, fun _ _ => rfl⟩

/-- The modes decide about a test case after all of its fields have been checked. -/
theorem read_eq_map_restrict (f : FloatFormat) (modes : ModeSet) (line : Text) :
    read f modes line = (read f .all line).map (restrict modes) := by
  rcases read_cases_options line with ⟨kind, hk, hr⟩ | ⟨st, hr⟩
  · rw [hr, hr]
    cases kind <;> simp_all [isPassed, restrict, Except.map]
  · rw [hr, hr]
    cases st.check f (Text.trim line) with
    | error e => rfl
    | ok t => simp [Except.map, ofTestcase_all, restrict]

/-- A line that is not refused is passed over whatever the options are, or is a test case. -/
theorem read_eq_ok_cases {kind : Line} (h : read f modes line = .ok kind) :
    (kind.isPassed = true ∧ ∀ g modes', read g modes' line = .ok kind) ∨
      ∃ t, kind = ofTestcase modes t := by
  rcases read_cases_options line with ⟨kind', hk, hr⟩ | ⟨st, hr⟩
  · obtain rfl := Except.ok.inj ((hr f modes).symm.trans h)
    exact Or.inl ⟨hk, hr⟩
  · rw [hr] at h
    cases hs : st.check f (Text.trim line) with
    | error e => simp [hs, Except.map] at h
    | ok t =>
      rw [hs] at h
      exact Or.inr ⟨t, (Except.ok.inj h).symm⟩

/-- No test case is left out if those of all modes are kept. -/
theorem isFiltered_of_read_all {kind : Line} (h : read f .all line = .ok kind) :
    kind.isFiltered = false := by
  rcases read_eq_ok_cases h with ⟨hk, -⟩ | ⟨t, rfl⟩
  · exact (isPassed_iff.mp hk).2
  · rw [ofTestcase_all]
    rfl

/-- Lines are read in the same way for all formats, up to the spelling of literals. -/
theorem map_outline_read (f g : FloatFormat) (modes : ModeSet) (line : Text) :
    (read f modes line).map outline = (read g modes line).map outline := by
  rcases read_cases_options line with ⟨kind, -, hr⟩ | ⟨st, hr⟩
  · rw [hr f, hr g]
  · have hc := Statement.map_outline_check f g (Text.trim line) st
    rw [hr f, hr g]
    cases hf : st.check f (Text.trim line) <;> cases hg : st.check g (Text.trim line) <;>
      simp_all [Except.map, outline_ofTestcase]

/-- A line that is refused is refused for the same reason whatever the options are. -/
theorem read_eq_error (h : read f modes line = .error e) (g : FloatFormat) (modes' : ModeSet) :
    read g modes' line = .error e := by
  have hf := read_eq_map_restrict f modes line
  have ho := map_outline_read f g .all line
  rw [read_eq_map_restrict]
  cases hr : read f .all line <;> cases hr' : read g .all line <;> simp_all [Except.map]

/-- A line that is not refused is not refused whatever the options are. -/
theorem exists_read_of_read {kind : Line} (h : read f modes line = .ok kind) (g : FloatFormat)
    (modes' : ModeSet) : ∃ kind', read g modes' line = .ok kind' := by
  cases hr : read g modes' line with
  | ok kind' => exact ⟨kind', rfl⟩
  | error e => simp [read_eq_error hr f modes] at h

/-- White space around a line does not count. -/
theorem read_congr (h : Text.trim line = Text.trim line') :
    read f modes line = read f modes line' := by
  simp only [read, h]

end Line
end FloatCases
