import FloatCases.Grammar.Mismatch
import FloatCases.Proofs.Conversion.Options
import FloatCases.Proofs.Line.Recognition

/-!
What a conversion counts and tells. Main statement: every line counts as one thing, the counts add
up to the number of lines, and what is told is told line by line up to the first fault, each in
words that hold the number and the text of the line, its mode, or the counts.
-/
namespace FloatCases

variable {f : FloatFormat} {modes : ModeSet} {n : Nat} {ls : List Text} {kinds : List Line}
  {text : Text} {kind : Line} {e : LineFault} {mismatch : Text → Text}

/-- An event in words, with its level. -/
def Event.inWords (mismatch : Text → Text) (e : Event) : Level × Text :=
  (e.level, e.message mismatch)

namespace Line

/-- What a line counts as. -/
inductive Role where
  | blank
  | comment
  | kept
  | filtered
  | unrecognized
  deriving DecidableEq

/-- What a line of a given kind counts as. -/
def role : Line → Role
  | blank => .blank
  | comment => .comment
  | unrecognized => .unrecognized
  | filtered _ => .filtered
  | testcase _ => .kept

/-- What a line of a file counts as, if it is not refused. -/
def role? (f : FloatFormat) (modes : ModeSet) (line : Text) : Option Role :=
  (read f modes line).toOption.map role

/-- The number of lines that count as something. -/
def tally (f : FloatFormat) (modes : ModeSet) (ls : List Text) (x : Role) : Nat :=
  ls.countP fun line => role? f modes line = some x

/-- What is told about a line with its number. -/
def told (mismatch : Text → Text) (f : FloatFormat) (modes : ModeSet) (x : Text × Nat) :
    List (Level × Text) :=
  match read f modes x.1 with
  | .ok unrecognized =>
    [(.trace, "no test-case match: ".toList ++ mismatch (Text.trim x.1)),
      (.warn, "Unrecognised line ".toList ++ Text.ofNat x.2 ++ ": ".toList ++ Text.trim x.1)]
  | .ok (filtered mode) =>
    [(.debug, "Skipping testcase with rounding mode ".toList ++ mode.name)]
  | _ => []

/-- What is told about lines, the first of which has number one. -/
def toldInOrder (mismatch : Text → Text) (f : FloatFormat) (modes : ModeSet) (ls : List Text) :
    List (Level × Text) :=
  (ls.zipIdx 1).flatMap (told mismatch f modes)

theorem role?_of_read (h : read f modes text = .ok kind) :
    role? f modes text = some kind.role := by
  simp [role?, h, Except.toOption]

/-- An unrecognized line is one that the grammar misses, and nothing else. -/
theorem parse?_eq_none_of_read (h : read f modes text = .ok unrecognized) :
    Rule.testcase.parse? (Text.trim text) = none := by
  by_contra hp
  exact (read_eq_unrecognized_iff.mp h).2.2 (Layout.exists_text_eq_of_parse? hp)

theorem told_of_read (h : read f modes text = .ok kind) :
    told mismatch f modes (text, n) =
      (Entry.events ⟨n, text, kind⟩).map (Event.inWords mismatch) := by
  unfold told
  rw [h]
  cases kind with
  | unrecognized =>
    have hp : (Rule.testcase.parse? (Text.trim text)).isNone = true := by
      rw [parse?_eq_none_of_read h]
      rfl
    rw [Entry.events, events, if_pos hp, if_pos rfl]
    rfl
  | blank | comment | filtered | testcase =>
    rw [Entry.events, if_neg (by simp), List.append_nil]
    rfl

/-- Lines are counted by their kinds. -/
theorem ReadAs.tally_eq (h : ReadAs f modes ls kinds) (x : Role) :
    tally f modes ls x = kinds.countP fun kind => kind.role = x := by
  induction h with
  | nil => rfl
  | cons hr _ ih =>
    rw [tally] at ih ⊢
    simp [List.countP_cons, role?_of_read hr, ih]

/-- Every line of a given kind is counted once. -/
theorem sum_countP_role (kinds : List Line) :
    (kinds.countP fun kind => kind.role = .blank) + (kinds.countP fun kind => kind.role = .comment)
      + (kinds.countP fun kind => kind.role = .kept)
      + (kinds.countP fun kind => kind.role = .filtered)
      + (kinds.countP fun kind => kind.role = .unrecognized) = kinds.length := by
  induction kinds with
  | nil => rfl
  | cons kind kinds ih =>
    rw [List.length_cons, ← ih]
    cases kind <;> simp only [List.countP_cons, role, reduceCtorEq, decide_true, decide_false,
      if_true, if_false, Bool.false_eq_true] <;> omega

end Line

namespace Reading

theorem length_testcases (r : Reading) :
    r.testcases.length = r.kinds.countP fun kind => kind.role = .kept := by
  rw [testcases_eq, List.length_filterMap_eq_countP]
  refine List.countP_congr fun kind _ => ?_
  cases kind <;> simp [Line.testcase?, Line.role]

theorem filtered_eq_countP_role (r : Reading) :
    r.filtered = r.kinds.countP fun kind => kind.role = .filtered := by
  rw [filtered_eq]
  refine List.countP_congr fun kind _ => ?_
  cases kind <;> simp [Line.isFiltered, Line.role]

theorem length_unrecognized (r : Reading) :
    r.unrecognized.length = r.kinds.countP fun kind => kind.role = .unrecognized := by
  rw [unrecognized, List.length_map, ← List.countP_eq_length_filter, kinds, List.countP_map]
  refine List.countP_congr fun x _ => ?_
  cases hx : x.line <;> simp [Line.role, hx]

/-- The lines that have been read are numbered one by one. -/
theorem map_number_ofLines (f : FloatFormat) (modes : ModeSet) (n : Nat) (ls : List Text) :
    (ofLines f modes n ls).entries.map (·.number) =
      List.range' n (ofLines f modes n ls).entries.length := by
  induction ls generalizing n with
  | nil => rfl
  | cons text ls ih =>
    cases hr : Line.read f modes text with
    | error e => simp [ofLines, hr]
    | ok kind => simp [ofLines, hr, ih, List.range'_succ]

/-- What has been read of a line carries its number and its text. -/
theorem mem_entries_ofLines_iff (h : (ofLines f modes n ls).fault = none) {x : Entry} :
    x ∈ (ofLines f modes n ls).entries ↔
      ∃ k, ls[k]? = some x.text ∧ x.number = n + k ∧ Line.read f modes x.text = .ok x.line := by
  induction ls generalizing n with
  | nil => simp [ofLines]
  | cons text ls ih =>
    cases hr : Line.read f modes text with
    | error e => simp [ofLines, hr] at h
    | ok kind =>
      simp only [ofLines, hr] at h ⊢
      rw [List.mem_cons, ih h]
      constructor
      · rintro (rfl | ⟨k, hk, hn, hx⟩)
        · exact ⟨0, rfl, rfl, hr⟩
        · exact ⟨k + 1, hk, by omega, hx⟩
      · rintro ⟨k, hk, hn, hx⟩
        cases k with
        | zero =>
          obtain rfl : text = x.text := by simpa using hk
          obtain rfl := Except.ok.inj (hr.symm.trans hx)
          exact Or.inl (by rw [← Nat.add_zero n, ← hn])
        | succ k => exact Or.inr ⟨k, by simpa using hk, by omega, hx⟩

/-- What is told about the lines that have been read is told line by line. -/
theorem map_inWords_events_ofLines (mismatch : Text → Text) (f : FloatFormat) (modes : ModeSet)
    (n : Nat) (ls : List Text) :
    (ofLines f modes n ls).events.map (Event.inWords mismatch) =
      ((ls.take (ofLines f modes n ls).entries.length).zipIdx n).flatMap
        (Line.told mismatch f modes) := by
  induction ls generalizing n with
  | nil => rfl
  | cons text ls ih =>
    cases hr : Line.read f modes text with
    | error e => simp [ofLines, hr, events]
    | ok kind =>
      have ih := ih (n + 1)
      simp only [events] at ih
      simp only [events, ofLines, hr, List.length_cons, List.take_succ_cons, List.zipIdx_cons,
        List.flatMap_cons, List.map_append, Line.told_of_read hr, ih]

/-- A reading ends just before the line with the fault. -/
theorem line_eq_of_fault (h : (ofLines f modes n ls).fault = some e) :
    e.line = n + (ofLines f modes n ls).entries.length ∧ e.line < n + ls.length := by
  induction ls generalizing n with
  | nil => simp [ofLines] at h
  | cons text ls ih =>
    cases hr : Line.read f modes text with
    | error fault =>
      obtain rfl : ⟨n, fault⟩ = e := by simpa [ofLines, hr] using h
      simp [ofLines, hr]
    | ok kind =>
      obtain ⟨hn, hlt⟩ := ih (n := n + 1) (by simpa [ofLines, hr] using h)
      simp only [ofLines, hr, List.length_cons]
      omega

end Reading

namespace Conversion

variable {o : Options} {source : Text} {c : Conversion}

/-- What is told before the lines: the format, unless it is given. -/
def toldFirst (o : Options) (source : Text) : List (Level × Text) :=
  if o.format = none then
    [(.debug, "Inferred float type ".toList ++ (Inference.infer (Text.lines source)).name)]
  else []

/-- What is told after the lines: the counts. -/
def toldLast (kept filtered unrecognized : Nat) : Level × Text :=
  (.debug, Text.ofNat kept ++ " test cases kept, ".toList ++ Text.ofNat filtered
    ++ " filtered, ".toList ++ Text.ofNat unrecognized ++ " unrecognised lines".toList)

/-- What is told is the format, then the lines that are read, and then the counts at the end. -/
theorem map_inWords_events (mismatch : Text → Text) (o : Options) (source : Text) :
    (events o source).map (Event.inWords mismatch) =
      toldFirst o source
        ++ Line.toldInOrder mismatch (formatFor o source) o.modes
          ((Text.lines source).take (reading o source).entries.length)
        ++ if (reading o source).fault = none
          then [toldLast (reading o source).testcases.length (reading o source).filtered
            (reading o source).unrecognized.length]
          else [] := by
  have hlines := Reading.map_inWords_events_ofLines mismatch (formatFor o source) o.modes 1
    (Text.lines source)
  rw [← reading, ← Line.toldInOrder] at hlines
  rw [events, List.map_append, List.map_append, hlines, toldFirst]
  congr 1
  · congr 1
    cases ho : o.format with
    | none =>
      rw [formatFor, ho]
      rfl
    | some f => rfl
  · cases (reading o source).fault <;> rfl

/-- The counts of a conversion are the numbers of its lines that count as something. -/
theorem tally_of_convert (h : convert o source = .ok c) :
    Line.tally c.format o.modes (Text.lines source) .kept = c.testcases.length ∧
      Line.tally c.format o.modes (Text.lines source) .filtered = c.filtered ∧
      Line.tally c.format o.modes (Text.lines source) .unrecognized = c.unrecognized.length := by
  have hread := readAs_of_convert h
  rw [hread.tally_eq, hread.tally_eq, hread.tally_eq]
  obtain ⟨-, rfl⟩ := convert_eq_ok_iff.mp h
  exact ⟨(Reading.length_testcases _).symm, (Reading.filtered_eq_countP_role _).symm,
    (Reading.length_unrecognized _).symm⟩

/-- The numbers of unrecognized lines are in order, and they are the numbers of just those lines. -/
theorem unrecognized_of_convert (h : convert o source = .ok c) :
    c.unrecognized.Pairwise (· < ·) ∧
      ∀ n, n ∈ c.unrecognized ↔ 1 ≤ n ∧ n ≤ (Text.lines source).length ∧
        ∃ line, (Text.lines source)[n - 1]? = some line ∧
          Line.read c.format o.modes line = .ok .unrecognized := by
  obtain ⟨hf, rfl⟩ := convert_eq_ok_iff.mp h
  constructor
  · have hnumbers := Reading.map_number_ofLines (formatFor o source) o.modes 1 (Text.lines source)
    refine List.Pairwise.sublist (List.Sublist.map _ List.filter_sublist) ?_
    rw [reading, hnumbers]
    exact List.pairwise_lt_range'
  · intro n
    change n ∈ ((reading o source).entries.filter _).map _ ↔ _
    simp only [List.mem_map, List.mem_filter, decide_eq_true_eq, reading,
      Reading.mem_entries_ofLines_iff hf]
    constructor
    · rintro ⟨x, ⟨⟨k, hk, hn, hx⟩, hu⟩, rfl⟩
      have hlt := (List.getElem?_eq_some_iff.mp hk).1
      refine ⟨by omega, by omega, x.text, ?_, hu ▸ hx⟩
      rwa [hn, Nat.add_sub_cancel_left]
    · rintro ⟨hpos, -, line, hl, hu⟩
      exact ⟨⟨n, line, .unrecognized⟩, ⟨⟨n - 1, hl, (Nat.add_sub_cancel' hpos).symm, hu⟩, rfl⟩, rfl⟩

/-- Every line counts as something once, and so the numbers add up to that of the lines. -/
theorem sum_tally_of_convert (h : convert o source = .ok c) :
    Line.tally c.format o.modes (Text.lines source) .blank
      + Line.tally c.format o.modes (Text.lines source) .comment
      + c.testcases.length + c.filtered + c.unrecognized.length = (Text.lines source).length := by
  have hread := readAs_of_convert h
  obtain ⟨hkept, hfiltered, hunrecognized⟩ := tally_of_convert h
  rw [← hkept, ← hfiltered, ← hunrecognized, hread.length_eq, ← Line.sum_countP_role]
  simp only [hread.tally_eq]

/-- What is told if there is a listing goes through all the lines and ends with the counts. -/
theorem inWords_events_of_convert (mismatch : Text → Text) (h : convert o source = .ok c) :
    (events o source).map (Event.inWords mismatch) =
      toldFirst o source ++ Line.toldInOrder mismatch c.format o.modes (Text.lines source)
        ++ [toldLast c.testcases.length c.filtered c.unrecognized.length] := by
  obtain ⟨hf, rfl⟩ := convert_eq_ok_iff.mp h
  have hall : (Text.lines source).length = (reading o source).entries.length := by
    rw [(Reading.ofLines_readAs hf).length_eq, List.length_map]
    rfl
  rw [map_inWords_events, if_pos hf, ← hall, List.take_length]
  rfl

/-- What is told if there is a fault ends before the line with the fault. -/
theorem inWords_events_of_error (mismatch : Text → Text) (h : convert o source = .error e) :
    1 ≤ e.line ∧ e.line ≤ (Text.lines source).length ∧
      (events o source).map (Event.inWords mismatch) =
        toldFirst o source ++ Line.toldInOrder mismatch (formatFor o source) o.modes
          ((Text.lines source).take (e.line - 1)) := by
  have hf := convert_eq_error_iff.mp h
  obtain ⟨hn, hlt⟩ := Reading.line_eq_of_fault hf
  have hread : (reading o source).entries.length = e.line - 1 := by
    rw [hn, Nat.add_sub_cancel_left]
    rfl
  refine ⟨by omega, by omega, ?_⟩
  rw [map_inWords_events, hf, hread, if_neg (by simp), List.append_nil]

/--
The account of a conversion. If it succeeds, every line counts as just one thing, the counts add up
to the number of lines, and the numbers of unrecognized lines are listed in order. What is told is
the format if it is inferred, then for each line in its place why the grammar misses it and that it
is unrecognized, or that it is left out, and then the counts. If the conversion fails, what is told
ends before the line with the fault.
-/
theorem convert_account (mismatch : Text → Text) (o : Options) (source : Text) :
    (∀ c, convert o source = .ok c →
      (∀ line ∈ Text.lines source, ∃! x, Line.role? c.format o.modes line = some x) ∧
      Line.tally c.format o.modes (Text.lines source) .blank
        + Line.tally c.format o.modes (Text.lines source) .comment
        + c.testcases.length + c.filtered + c.unrecognized.length = (Text.lines source).length ∧
      Line.tally c.format o.modes (Text.lines source) .kept = c.testcases.length ∧
      Line.tally c.format o.modes (Text.lines source) .filtered = c.filtered ∧
      Line.tally c.format o.modes (Text.lines source) .unrecognized = c.unrecognized.length ∧
      c.unrecognized.Pairwise (· < ·) ∧
      (∀ n, n ∈ c.unrecognized ↔ 1 ≤ n ∧ n ≤ (Text.lines source).length ∧
        ∃ line, (Text.lines source)[n - 1]? = some line ∧
          Line.read c.format o.modes line = .ok .unrecognized) ∧
      (events o source).map (Event.inWords mismatch) =
        toldFirst o source ++ Line.toldInOrder mismatch c.format o.modes (Text.lines source)
          ++ [toldLast c.testcases.length c.filtered c.unrecognized.length]) ∧
    ∀ e, convert o source = .error e →
      1 ≤ e.line ∧ e.line ≤ (Text.lines source).length ∧
      (events o source).map (Event.inWords mismatch) =
        toldFirst o source ++ Line.toldInOrder mismatch (formatFor o source) o.modes
          ((Text.lines source).take (e.line - 1)) := by
  refine ⟨fun c h => ?_, fun e => inWords_events_of_error mismatch⟩
  obtain ⟨hkept, hfiltered, hunrecognized⟩ := tally_of_convert h
  obtain ⟨hsorted, hmem⟩ := unrecognized_of_convert h
  refine ⟨fun line hl => ?_, sum_tally_of_convert h, hkept, hfiltered, hunrecognized, hsorted,
    hmem, inWords_events_of_convert mismatch h⟩
  obtain ⟨kind, hk⟩ := (readAs_of_convert h).exists_read hl
  rw [Line.role?_of_read hk]
  exact ⟨kind.role, rfl, fun x hx => (Option.some.inj hx).symm⟩

/-- A file with a line of each kind, and the same file with a fault in the last line. -/
theorem convert_account_mixed :
    let o : Options := ⟨none, .only .nearest, "gen".toList⟩
    let source := " a \n//\n\nT(RU, inf, inf, 0x0p+0, 0)\nT(RN, inf, nan, 0x0p+0, 0)".toList
    let broken := " a \n//\n\nT(RU, inf, inf, 0x0p+0, 0)\nT(RN, inf, nan, 0x0p+0, 1)".toList
    let format := (Level.debug, "Inferred float type f32".toList)
    let why := "no test-case match: ".toList ++ Rule.testcase.mismatch ['a']
    let warning := (Level.warn, "Unrecognised line 1: a".toList)
    let skip := (Level.debug, "Skipping testcase with rounding mode RU".toList)
    let counts := (Level.debug, "1 test cases kept, 1 filtered, 1 unrecognised lines".toList)
    (∃ c, convert o source = .ok c ∧ c.unrecognized = [1] ∧
      (events o source).map (Event.inWords Rule.testcase.mismatch) =
        [format, (.trace, why), warning, skip, counts]) ∧
    ∃ e, convert o broken = .error e ∧ e.line = 5 ∧
      (events o broken).map (Event.inWords Rule.testcase.mismatch) =
        [format, (.trace, why), warning, skip] := by
  intro o source broken format why warning skip counts
  have hc : convert o source = .ok (ofReading o source (reading o source)) :=
    convert_eq_ok_iff.mpr ⟨by decide +kernel, rfl⟩
  have he : convert o broken = .error ⟨5, .unknownFlag ['1'], "T(RN, inf, nan, 0x0p+0, 1)".toList,
      24, 25⟩ := convert_eq_error_iff.mpr (by decide +kernel)
  obtain ⟨-, -, -, -, -, -, -, htold⟩ := (convert_account Rule.testcase.mismatch o source).1 _ hc
  obtain ⟨-, -, hbroken⟩ := (convert_account Rule.testcase.mismatch o broken).2 _ he
  exact ⟨⟨_, hc, by decide +kernel, htold.trans (by decide +kernel)⟩,
    _, he, rfl, hbroken.trans (by decide +kernel)⟩

/-- The warning about an unrecognized line is not all that is told about it. -/
theorem events_traced :
    let o : Options := ⟨none, .default, "fptab".toList⟩
    let source := "x\n".toList
    let format := (Level.debug, "Inferred float type f32".toList)
    let why := (Level.trace, "no test-case match: ".toList ++ Rule.testcase.mismatch ['x'])
    let warning := (Level.warn, "Unrecognised line 1: x".toList)
    let counts := (Level.debug, "0 test cases kept, 0 filtered, 1 unrecognised lines".toList)
    (∃ c, convert o source = .ok c ∧ c.unrecognized = [1]) ∧
    (events o source).map (Event.inWords Rule.testcase.mismatch) =
      [format, why, warning, counts] ∧
    (events o source).map (Event.inWords Rule.testcase.mismatch) ≠
      [format, warning, counts] := by
  intro o source format why warning counts
  have hc : convert o source = .ok (ofReading o source (reading o source)) :=
    convert_eq_ok_iff.mpr ⟨by decide +kernel, rfl⟩
  have htold : (events o source).map (Event.inWords Rule.testcase.mismatch) =
      [format, why, warning, counts] := by decide +kernel
  refine ⟨⟨_, hc, by decide +kernel⟩, htold, fun h => ?_⟩
  have hl := congrArg List.length (htold.symm.trans h)
  exact absurd hl (by decide)

end Conversion
end FloatCases
