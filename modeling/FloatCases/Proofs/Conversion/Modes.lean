import FloatCases.Proofs.Conversion.Options
import FloatCases.Proofs.Listing.Dropping
import FloatCases.Proofs.Text.Lines

/-!
What the modes change in a conversion. Main statement: a conversion for some modes is that for all
modes with the other test cases left out, and its listing is that of the file without their lines.
-/
namespace FloatCases

variable {f : FloatFormat} {modes : ModeSet} {texts rows : List Text} {kinds : List Line}

namespace Line

/-- Whether a line is read as a test case that is not kept. -/
def isLeftOut (f : FloatFormat) (modes : ModeSet) (line : Text) : Bool :=
  (read f modes line).toOption.any isFiltered

theorem testcase?_restrict (modes : ModeSet) (kind : Line) :
    (kind.restrict modes).testcase? = kind.testcase?.filter fun t => modes.contains t.mode := by
  cases kind with
  | testcase t =>
    cases h : modes.contains t.mode <;> simp [restrict, ofTestcase, h, testcase?, Option.filter]
  | _ => rfl

theorem isFiltered_restrict {kind : Line} (h : kind.isFiltered = false) :
    (kind.restrict modes).isFiltered = kind.testcase?.any fun t => !modes.contains t.mode := by
  cases kind with
  | testcase t =>
    cases hm : modes.contains t.mode <;> simp [restrict, ofTestcase, hm, testcase?, isFiltered]
  | filtered m => simp [isFiltered] at h
  | _ => rfl

/-- No test case that is kept is left out. -/
theorem filterMap_testcase?_filter (kinds : List Line) :
    (kinds.filter fun kind => !kind.isFiltered).filterMap testcase? =
      kinds.filterMap testcase? := by
  induction kinds with
  | nil => rfl
  | cons kind kinds ih =>
    cases kind with
    | testcase t => exact congrArg (t :: ·) ih
    | _ => exact ih

theorem isLeftOut_of_read {line : Text} {kind : Line} (h : read f modes line = .ok kind) :
    isLeftOut f modes line = kind.isFiltered := by
  simp [isLeftOut, h, Except.toOption]

/-- The lines that are not left out are read as before. -/
theorem ReadAs.keep (h : ReadAs f modes texts kinds) :
    ReadAs f modes (texts.filter fun line => !isLeftOut f modes line)
      (kinds.filter fun kind => !kind.isFiltered) := by
  induction h with
  | nil => exact List.Forall₂.nil
  | cons hr _ ih =>
    rw [List.filter_cons, List.filter_cons, isLeftOut_of_read hr]
    split
    · exact List.Forall₂.cons hr ih
    · exact ih

/-- The slots that are dropped are those of the lines that are left out. -/
theorem ReadAs.zip_slots (h : ReadAs f modes texts kinds) (n : Nat) :
    (texts.filter fun line => !isLeftOut f modes line).zip
        (Reading.slotsFrom n (kinds.filter fun kind => !kind.isFiltered)) =
      (texts.zip (Reading.slotsFrom n kinds)).filter Listing.isShown := by
  induction h generalizing n with
  | nil => rfl
  | @cons text kind texts kinds hr _ ih =>
    rw [List.filter_cons, List.filter_cons, isLeftOut_of_read hr]
    cases kind with
    | testcase t => exact congrArg ((text, Slot.row n) :: ·) (ih (n + 1))
    | filtered m => exact ih n
    | _ => exact congrArg ((text, Slot.pass) :: ·) (ih n)

end Line

namespace Reading

theorem filterMap_testcase?_restrict (modes : ModeSet) (kinds : List Line) :
    (kinds.map (Line.restrict modes)).filterMap Line.testcase? =
      (kinds.filterMap Line.testcase?).filter fun t => modes.contains t.mode := by
  simp [List.filterMap_map, List.filter_filterMap, Line.testcase?_restrict]

theorem countP_isFiltered_restrict (modes : ModeSet) (h : ∀ kind ∈ kinds, kind.isFiltered = false) :
    (kinds.map (Line.restrict modes)).countP Line.isFiltered =
      (kinds.filterMap Line.testcase?).countP fun t => !modes.contains t.mode := by
  rw [List.countP_map, List.countP_filterMap]
  refine List.countP_congr fun kind hk => ?_
  rw [Function.comp_apply, Line.isFiltered_restrict (h kind hk)]
  cases kind.testcase? <;> simp

end Reading

namespace Conversion

variable {o : Options} {source : Text} {c a : Conversion}

/-- A reading for some modes is that for all modes, line by line. -/
theorem reading_eq_mapLines_restrict (o : Options) (source : Text) :
    reading o source = (reading { o with modes := .all } source).mapLines (.restrict o.modes) :=
  Reading.ofLines_eq_mapLines_restrict _ _ 1 _

/-- The file without the lines of test cases that are not kept has the listing of the whole file. -/
theorem exists_convert_keepLines {f : FloatFormat} (hf : o.format = some f)
    (h : convert o source = .ok c) :
    ∃ c', convert o (Text.keepLines (fun line => !Line.isLeftOut f o.modes line) source) = .ok c' ∧
      c'.output = c.output := by
  have hformat : ∀ s, formatFor o s = f := fun s => by rw [formatFor, hf, Option.getD_some]
  have hcf : c.format = f := (format_of_convert h).trans (hformat source)
  have hread := readAs_of_convert h
  rw [hcf] at hread
  generalize hs : Text.keepLines (fun line => !Line.isLeftOut f o.modes line) source = s
  have hlines : Text.lines s = (Text.lines source).filter fun line =>
      !Line.isLeftOut f o.modes line := by
    rw [← hs, Text.lines_keepLines]
  have hread' : Line.ReadAs (formatFor o s) o.modes (Text.lines s)
      ((reading o source).kinds.filter fun kind => !kind.isFiltered) := by
    rw [hformat, hlines]
    exact hread.keep
  obtain ⟨c', hc', hk⟩ := convert_of_readAs hread'
  have hcf' : c'.format = f := (format_of_convert hc').trans (hformat s)
  obtain ⟨ht, -, ho⟩ := eq_of_convert h
  obtain ⟨ht', -, ho'⟩ := eq_of_convert hc'
  have htests : c'.testcases = c.testcases := by
    rw [ht', hk, ht, Line.filterMap_testcase?_filter]
  refine ⟨c', hc', ?_⟩
  rw [ho, ho', htests, hcf, hcf', hk, hlines]
  exact Listing.write_filter_isShown _ (hread.zip_slots 0) _

/--
A conversion for some modes succeeds if and only if that for all modes does. It keeps the test cases
of these modes, as they are and in their order, and counts the others; the listing is that of the
file without the lines of the others, if the format is given.
-/
theorem convert_modes (o : Options) (source : Text) :
    ((∃ c, convert o source = .ok c) ↔ ∃ a, convert { o with modes := .all } source = .ok a) ∧
    ∀ c a, convert o source = .ok c → convert { o with modes := .all } source = .ok a →
      c.format = a.format ∧ c.unrecognized = a.unrecognized ∧
      c.testcases = a.testcases.filter (fun t => o.modes.contains t.mode) ∧
      c.filtered = a.testcases.countP (fun t => !o.modes.contains t.mode) ∧
      ∀ f, o.format = some f →
        ∃ c', convert o (Text.keepLines (fun line => !Line.isLeftOut f o.modes line) source) =
            .ok c' ∧ c'.output = c.output := by
  have hr := reading_eq_mapLines_restrict o source
  refine ⟨?_, fun c a hc ha => ?_⟩
  · have hf := fault_reading_options o { o with modes := .all } source
    simp only [convert_eq_ok_iff, hf, exists_and_left, exists_eq', and_true]
  · have hfilt : ∀ kind ∈ (reading { o with modes := .all } source).kinds,
        kind.isFiltered = false := by
      intro kind hk
      obtain ⟨text, -, ht⟩ := (readAs_of_convert ha).exists_text hk
      exact Line.isFiltered_of_read_all ht
    obtain ⟨htc, hfc, -⟩ := eq_of_convert hc
    obtain ⟨hta, -, -⟩ := eq_of_convert ha
    rw [hr, Reading.kinds_mapLines] at htc hfc
    refine ⟨?_, ?_, ?_, ?_, fun f hf => exists_convert_keepLines hf hc⟩
    · rw [format_of_convert hc, format_of_convert ha]
      rfl
    · obtain ⟨-, rfl⟩ := convert_eq_ok_iff.mp hc
      obtain ⟨-, rfl⟩ := convert_eq_ok_iff.mp ha
      change (reading o source).unrecognized =
        (reading { o with modes := .all } source).unrecognized
      rw [hr, Reading.unrecognized_mapLines fun kind => Line.restrict_eq_unrecognized_iff]
    · rw [htc, hta, Reading.filterMap_testcase?_restrict]
    · rw [hfc, hta, Reading.countP_isFiltered_restrict _ hfilt]

/-- Of two test cases the first is left out, and its line may as well be missing. -/
theorem convert_modes_upward :
    let o : Options := ⟨some .f32, .only .nearest, "gen".toList⟩
    let source := "// a\r\nT(RU, inf, inf, 0x0p+0, 0)\r\nT(RN, inf, nan, 0x0p+0, 0)\n".toList
    ∃ c a c', convert o source = .ok c ∧ convert { o with modes := .all } source = .ok a ∧
      c.testcases = a.testcases.filter (fun t => o.modes.contains t.mode) ∧
      c.filtered = a.testcases.countP (fun t => !o.modes.contains t.mode) ∧
      convert o "// a\r\nT(RN, inf, nan, 0x0p+0, 0)\n".toList = .ok c' ∧ c'.output = c.output := by
  intro o source
  have hc : convert o source = .ok _ := rfl
  have ha : convert { o with modes := .all } source = .ok _ := rfl
  obtain ⟨-, -, ht, hn, hk⟩ := (convert_modes o source).2 _ _ hc ha
  obtain ⟨c', hc', ho⟩ := hk .f32 rfl
  have hs : Text.keepLines (fun line => !Line.isLeftOut .f32 o.modes line) source =
      "// a\r\nT(RN, inf, nan, 0x0p+0, 0)\n".toList := by decide +kernel
  rw [hs] at hc'
  exact ⟨_, _, c', hc, ha, ht, hn, hc', ho⟩

end Conversion
end FloatCases
