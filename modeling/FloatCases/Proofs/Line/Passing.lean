import FloatCases.Proofs.Line.Options
import FloatCases.Proofs.Line.Recognition

/-!
Lines that are passed over. Main statements: a line whose first printed character does not open a
test case is passed over whatever the options are, and so is a line that differs from a line that is
passed over in white space at its ends only.
-/
namespace FloatCases.Line

variable {f : FloatFormat} {modes : ModeSet} {line line' s w : Text} {kind : Line}

/-- A line that is passed over whatever the options are. -/
def Passes (line : Text) : Prop :=
  ∃ kind : Line, kind.isPassed = true ∧ ∀ f modes, read f modes line = .ok kind

/-- A line that can be written and read again: it stays one line, as it is, and is passed over. -/
structure Inert (line : Text) : Prop where
  newline_notMem : '\n' ∉ line
  getLast?_ne : line.getLast? ≠ some '\r'
  passes : Passes line

theorem isPassed_ofTestcase (modes : ModeSet) (t : Testcase) :
    (ofTestcase modes t).isPassed = false := by
  unfold ofTestcase
  split <;> rfl

/-- There is no test case among lines that are passed over. -/
theorem filterMap_testcase?_of_isPassed {kinds : List Line}
    (h : ∀ kind ∈ kinds, kind.isPassed = true) : kinds.filterMap testcase? = [] :=
  List.filterMap_eq_nil_iff.mpr fun kind hk => (isPassed_iff.mp (h kind hk)).1

/-- A line that is passed over for some options is passed over for all. -/
theorem passes_of_read (h : read f modes line = .ok kind) (hk : kind.isPassed = true) :
    Passes line := by
  rcases read_eq_ok_cases h with ⟨-, hr⟩ | ⟨t, rfl⟩
  · exact ⟨kind, hk, hr⟩
  · simp [isPassed_ofTestcase] at hk

theorem Passes.congr (h : Passes line) (ht : Text.trim line' = Text.trim line) : Passes line' := by
  obtain ⟨kind, hk, hr⟩ := h
  exact ⟨kind, hk, fun f modes => (read_congr ht).trans (hr f modes)⟩

/-- A line that does not open as a test case is passed over. -/
theorem passes_of_head?_ne (h : (Text.trim line).head? ≠ some 'T') : Passes line := by
  by_cases hb : Text.trim line = []
  · exact ⟨blank, rfl, fun _ _ => read_eq_blank_iff.mpr hb⟩
  by_cases hc : "//".toList <+: Text.trim line
  · exact ⟨comment, rfl, fun _ _ => read_eq_comment_iff.mpr hc⟩
  refine ⟨unrecognized, rfl, fun _ _ => read_eq_unrecognized_iff.mpr ⟨hb, hc, ?_⟩⟩
  rintro ⟨l, hl⟩
  rw [← hl, l.text_eq] at h
  exact h rfl

theorem inert_nil : Inert [] where
  newline_notMem := List.not_mem_nil
  getLast?_ne := by simp
  passes := ⟨blank, rfl, fun _ _ => rfl⟩

/--
Whether a text is one line that is not blank, does not open as a test case, and starts with no white
space and ends with no carriage return.
-/
def isPlain (s : Text) : Bool :=
  s.head?.any (fun c => !Text.isBlank c && c ≠ 'T') && !s.contains '\n' && s.getLast? ≠ some '\r'

theorem inert_of_isPlain (h : isPlain s = true) : Inert s := by
  simp only [isPlain, Bool.and_eq_true, Bool.not_eq_true', decide_eq_true_eq] at h
  obtain ⟨⟨hs, hn⟩, hr⟩ := h
  refine ⟨by simpa using hn, hr, passes_of_head?_ne ?_⟩
  cases s with
  | nil => simp at hs
  | cons c s =>
    obtain ⟨hb, hT⟩ : Text.isBlank c = false ∧ c ≠ 'T' := by simpa using hs
    simpa [Text.trim_cons hb] using hT

/-- The trimmed form of a line that is passed over. -/
theorem Passes.inert_trim (h : Passes line) (hn : '\n' ∉ line) : Inert (Text.trim line) where
  newline_notMem := fun hm => hn (Text.mem_of_mem_trim hm)
  getLast?_ne := Text.getLast?_ne_return (Text.stops_reverse_trim line)
  passes := h.congr (Text.trim_trim line)

theorem Inert.append_spaces (h : Inert s) (hw : ∀ c ∈ w, c = ' ') : Inert (w ++ s) where
  newline_notMem := by
    rw [List.mem_append, not_or]
    exact ⟨fun hm => absurd (hw _ hm) (by decide), h.newline_notMem⟩
  getLast?_ne := by
    rw [List.getLast?_append]
    cases hs : s.getLast? with
    | some c => simpa [hs] using h.getLast?_ne
    | none =>
      intro hl
      exact absurd (hw _ (List.mem_of_getLast? hl)) (by decide)
  passes := h.passes.congr (Text.trim_append_of_isBlank (fun c hc => hw c hc ▸ by decide) s)

end FloatCases.Line
