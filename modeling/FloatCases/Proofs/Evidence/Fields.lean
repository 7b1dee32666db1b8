import FloatCases.Proofs.Conversion.Reading
import FloatCases.Proofs.Evidence.Demand
import FloatCases.Proofs.Line.Recognition
import FloatCases.Proofs.Literal.Reading
import FloatCases.Proofs.Text.Pieces

/-!
What the fields of a test case are evidence of. Main statement: the evidence of a test case are its
literal fields and then what the scan finds in its comment, so an inferred format is wide enough for
all of its fields.
-/
namespace FloatCases

variable {f : FloatFormat} {line s w : Text} {l : Layout} {t : Testcase} {x : Lexeme}
  {xs : List Lexeme} {c d : Char}

namespace FlagSet

/-- The name of a flag, or of no flags, has no `x` in it. -/
theorem not_mem_of_ofName? (h : ofName? s ≠ none) : 'x' ∉ s := by
  unfold ofName? at h
  split at h
  · rename_i hs
    rw [hs]
    decide
  · cases hx : Flag.ofName? s with
    | none => simp [hx] at h
    | some x =>
      have hs : x.name = s := by simpa using List.find?_some hx
      rw [← hs]
      cases x <;> decide

theorem ofName?_ne_none_of_ofNames {names : List Text} {y : FlagSet} (h : ofNames names = .ok y) :
    ∀ s ∈ names, ofName? s ≠ none := by
  induction names generalizing y with
  | nil => simp
  | cons s names ih =>
    unfold ofNames at h
    cases hs : ofName? s with
    | none => simp [hs] at h
    | some z =>
      cases hn : ofNames names with
      | error e => simp [hs, hn, Except.map] at h
      | ok y' => exact List.forall_mem_cons.mpr ⟨by simp [hs], ih hn⟩

/-- A flag list has no `x` in it, whatever white space it has. -/
theorem not_mem_of_parse {y : FlagSet} (h : parse s = .ok y) : 'x' ∉ s := by
  intro hx
  unfold parse at h
  split at h
  · rename_i hs
    have ht := Text.mem_trim_of_mem hx (by decide)
    rw [hs] at ht
    exact absurd ht (by decide)
  · obtain ⟨w, hw, hxw⟩ := Text.exists_mem_splitOn (d := '|') (by decide) hx
    have hn := ofName?_ne_none_of_ofNames h (Text.trim w) (List.mem_map_of_mem hw)
    exact not_mem_of_ofName? hn (Text.mem_trim_of_mem hxw (by decide))

end FlagSet

theorem RoundingMode.not_mem_of_ofName? {m : RoundingMode} (h : ofName? s = some m) : 'x' ∉ s := by
  have hs : m.name = s := by simpa using List.find?_some h
  rw [← hs]
  cases m <;> decide

namespace Lexeme

/-- A literal is evidence of itself if it is a numeral, and of nothing if it is a special one. -/
def Shown (s : Text) (xs : List Lexeme) : Prop :=
  (s ∈ ["inf".toList, "-inf".toList, "nan".toList] ∧ xs = []) ∨
    ∃ x, x.WellFormed ∧ x.text = s ∧ xs = [x]

theorem Shown.wellFormed (h : Shown s xs) (hx : x ∈ xs) : x.WellFormed := by
  rcases h with ⟨-, rfl⟩ | ⟨y, hy, -, rfl⟩
  · exact absurd hx List.not_mem_nil
  · exact List.mem_singleton.mp hx ▸ hy

theorem shown_scan_text (hx : x.WellFormed) : Shown x.text (scan x.text) :=
  Or.inr ⟨x, hx, rfl, scan_text hx⟩

/-- What a scan finds in a literal is what the literal shows. -/
theorem shown_scan {a : Literal} (h : Literal.Spells s a) : Shown s (scan s) := by
  cases h with
  | infinity negative =>
    refine Or.inl ⟨?_, scan_of_not_mem ?_⟩ <;> cases negative <;> decide
  | notANumber => exact Or.inl ⟨by decide, scan_of_not_mem (by decide)⟩
  | negativeZero suffix hf =>
    exact shown_scan_text (Literal.integerNumeral_wellFormed true suffix (by decide) hf)
  | integer suffix hd hf hz =>
    exact shown_scan_text (Literal.integerNumeral_wellFormed _ suffix hd hf)
  | power h _ => exact shown_scan_text h
  | fractional h _ => exact shown_scan_text h

theorem shown_of_canonicalize {s' : Text} (h : Literal.canonicalize f s = .ok s') :
    Shown s (scan s) := by
  obtain ⟨a, ha, -⟩ := Literal.canonicalize_eq_ok_iff.mp h
  exact shown_scan (Literal.read?_eq_some_iff.mp ha)

theorem not_isNumeralChar_of_isBlank (hc : Text.isBlank c = true) : isNumeralChar c = false := by
  cases hn : isNumeralChar c with
  | false => rfl
  | true =>
    have hr := toNat_of_isNumeralChar hn
    have hb := Text.toNat_of_isBlank hc
    omega

theorem not_isNumeralChar_of_isSpacing (hc : Grammar.isSpacing c = true) :
    isNumeralChar c = false := by
  simp only [Grammar.isSpacing, Bool.or_eq_true, decide_eq_true_eq] at hc
  rcases hc with rfl | rfl <;> decide

theorem not_isNumeralChar_of_mem_break (hd : isNumeralChar d = false) (b : Break) :
    ∀ c ∈ b.text d, isNumeralChar c = false := by
  simp only [Break.text, List.mem_append, List.mem_cons]
  rintro c (hc | rfl | hc)
  · exact not_isNumeralChar_of_isSpacing (b.before.2 c hc)
  · exact hd
  · exact not_isNumeralChar_of_isSpacing (b.after.2 c hc)

/-- A field of a line is scanned on its own. -/
theorem scan_field (hd : isNumeralChar d = false) (w : Text) (b : Break) (s : Text) :
    scan (w ++ (b.text d ++ s)) = scan w ++ scan s := by
  have hb := not_isNumeralChar_of_mem_break hd b
  rw [scan_append (Text.Stops.append (by simp [Break.text]) hb), scan_skip hb]

/-- White space at the end of a text shows nothing. -/
theorem scan_append_blank (hw : ∀ c ∈ w, Text.isBlank c = true) (s : Text) :
    scan (s ++ w) = scan s := by
  have hn : ∀ c ∈ w, isNumeralChar c = false := fun c hc => not_isNumeralChar_of_isBlank (hw c hc)
  have hr : Text.Stops isNumeralChar w := fun c hc => hn c (List.mem_of_mem_head? hc)
  have hs := scan_skip hn []
  rw [List.append_nil, scan_nil] at hs
  rw [scan_append hr, hs, List.append_nil]

/-- A remark shows what its comment does. -/
theorem scan_remark (r : Option Remark) :
    scan (Remark.text r) = scan ((Remark.comment? r).getD []) := by
  cases r with
  | none => rfl
  | some r =>
    have hs : ∀ c ∈ "//".toList, isNumeralChar c = false :=
      List.forall_mem_cons.mpr ⟨by decide, List.forall_mem_singleton.mpr (by decide)⟩
    have hg : ∀ c ∈ r.gap.1, isNumeralChar c = false :=
      fun c hc => not_isNumeralChar_of_isSpacing (r.gap.2 c hc)
    rw [Remark.text, scan_skip hs, scan_skip hg]
    by_cases hn : r.comment = [] <;> simp [Remark.comment?, hn, Option.filter]

/-- A field that is a numeral is found by a scan of the field. -/
theorem mem_scan_of_text_eq (hx : x.WellFormed) (hs : x.text = s) : x ∈ scan s := by
  rw [← hs, scan_text hx]
  exact List.mem_singleton_self x

end Lexeme

namespace Inference

theorem afterOpening_append (hw : 'T' ∉ w) (s : Text) :
    afterOpening (w ++ 'T' :: '(' :: s) = s := by
  induction w with
  | nil => rfl
  | cons c w ih =>
    obtain ⟨hc, hw⟩ := not_or.mp (fun h => hw (List.mem_cons.mpr h))
    rw [List.cons_append, afterOpening, ih hw]
    rintro s' rfl
    exact absurd rfl hc

/-- A line laid out as a test case is scanned field by field. -/
theorem evidence_of_text_eq (hl : l.text = Text.trim line) :
    evidence line =
      Lexeme.scan l.mode.1 ++ (Lexeme.scan l.input.1 ++ (Lexeme.scan l.output.1 ++
        (Lexeme.scan l.errorBound.1 ++ (Lexeme.scan l.flagList ++
          Lexeme.scan ((Remark.comment? l.remark).getD []))))) := by
  obtain ⟨w, w', hw, hw', hs⟩ := Text.exists_trim_eq line
  have hT : 'T' ∉ w := fun h => absurd (hw 'T' h) (by decide)
  have ho : line = w ++ 'T' :: '(' :: (l.opening.1 ++ (l.fromMode ++ w')) := by
    rw [hs, ← hl, l.text_eq]
    simp
  have hm : l.fromMode = l.mode.1 ++ (l.afterMode.text ',' ++ (l.input.1 ++
      (l.afterInput.text ',' ++ (l.output.1 ++ (l.afterOutput.text ',' ++ (l.errorBound.1 ++
        (l.afterErrorBound.text ',' ++ (l.flagList ++
          (l.closing.text ')' ++ Remark.text l.remark))))))))) := by
    simp [Layout.fromMode, Layout.fromInput, Layout.fromOutput, Layout.fromErrorBound,
      Layout.fromFlags, Layout.afterFlags, Layout.flagList]
  have hc : Lexeme.isNumeralChar ',' = false := by decide
  rw [evidence, ho, afterOpening_append hT,
    Lexeme.scan_skip fun c h => Lexeme.not_isNumeralChar_of_isSpacing (l.opening.2 c h),
    Lexeme.scan_append_blank hw', hm, Lexeme.scan_field hc, Lexeme.scan_field hc,
    Lexeme.scan_field hc, Lexeme.scan_field hc, Lexeme.scan_field (by decide), Lexeme.scan_remark]

/-- The evidence of a test case are its literal fields and then what stands in its comment. -/
theorem evidence_of_fields (hl : l.text = Text.trim line) (ht : l.Says f t) :
    evidence line =
      Lexeme.scan l.input.1 ++ (Lexeme.scan l.output.1 ++ (Lexeme.scan l.errorBound.1 ++
        Lexeme.scan (t.comment.getD []))) := by
  rw [evidence_of_text_eq hl, Lexeme.scan_of_not_mem (RoundingMode.not_mem_of_ofName? ht.mode),
    Lexeme.scan_of_not_mem (FlagSet.not_mem_of_parse ht.flags), ht.comment]
  rfl

/-- A line of a file that is converted for an inferred format shows all of its fields. -/
theorem mem_evidence_of_convert {o : Options} {source : Text} {c : Conversion}
    (h : Conversion.convert o source = .ok c) (hline : line ∈ Text.lines source)
    (hl : l.text = Text.trim line) (hs : s ∈ [l.input.1, l.output.1, l.errorBound.1])
    (hx : x.WellFormed) (ht : x.text = s) : x ∈ evidence line := by
  obtain ⟨kind, hk⟩ := (Conversion.readAs_of_convert h).exists_read hline
  rcases Line.read_of_text_eq_cases c.format o.modes hl with ⟨t, hsays, -⟩ | ⟨-, e, he⟩
  · have hm := Lexeme.mem_scan_of_text_eq hx ht
    rw [evidence_of_fields hl hsays]
    simp only [List.mem_cons, List.not_mem_nil, or_false] at hs
    rcases hs with rfl | rfl | rfl <;> simp [hm]
  · simp [hk] at he

/--
The evidence of a test case are its literal fields, as they are written, and then what stands in
its comment. So a file that is converted for an inferred format has no field that the format is too
narrow for.
-/
theorem evidence_eq_fields :
    (∀ f modes line t, Line.read f modes line = .ok (.testcase t) →
      ∃ l : Layout, l.text = Text.trim line ∧ l.Says f t ∧ ∃ xs ys zs,
        Lexeme.Shown l.input.1 xs ∧ Lexeme.Shown l.output.1 ys ∧ Lexeme.Shown l.errorBound.1 zs ∧
        (∀ x ∈ xs ++ ys ++ zs,
          x.scale.magnitude = min (Text.number 10 x.scale.digits) Scale.magnitudeLimit) ∧
        evidence line = xs ++ ys ++ zs ++ Lexeme.scan (t.comment.getD [])) ∧
    ∀ o source c, o.format = none → Conversion.convert o source = .ok c →
      ∀ line ∈ Text.lines source, ∀ l : Layout, l.text = Text.trim line →
      ∀ s ∈ [l.input.1, l.output.1, l.errorBound.1], ∀ x : Lexeme, x.WellFormed → x.text = s →
        (c.format = .f32 → x.scale.suffix = none ∧ x.fraction.length ≤ 6 ∧
          Text.number 10 x.scale.digits ≤ 127) ∧
        (c.format = .f64 → x.scale.suffix ≠ some .quad) := by
  constructor
  · intro f modes line t h
    obtain ⟨-, l, hl, ht⟩ := Line.read_eq_testcase_iff.mp h
    have hi := Lexeme.shown_of_canonicalize ht.input
    have ho := Lexeme.shown_of_canonicalize ht.output
    have he := Lexeme.shown_of_canonicalize ht.errorBound
    refine ⟨l, hl, ht, _, _, _, hi, ho, he, fun x hx => ?_, ?_⟩
    · have hw : x.WellFormed := by
        rcases List.mem_append.mp hx with hx | hx
        · exact (List.mem_append.mp hx).elim hi.wellFormed ho.wellFormed
        · exact he.wellFormed hx
      exact Scale.magnitude_eq hw.scale
    · rw [evidence_of_fields hl ht]
      simp
  · intro o source c hf h line hline l hl s hs x hx ht
    have hm := mem_evidence_of_convert h hline hl hs hx ht
    have hc : c.format = infer (Text.lines source) := by
      rw [Conversion.format_of_convert h, Conversion.formatFor, hf, Option.getD_none]
    have hd := bits_demand_le hline hm
    rw [← hc] at hd
    constructor
    · intro hf
      exact Lexeme.small_of_demand hx (by rwa [hf] at hd)
    · intro hf
      exact Lexeme.suffix_ne_quad_of_demand (by rwa [hf] at hd)

/--
A test case whose comment holds a numeral, too, and two files that are converted for inferred
formats.
-/
theorem evidence_eq_fields_commented :
    let o : Options := ⟨none, .all, "fptab".toList⟩
    let single := "T(RN,0x1.8p-7,inf,0x0p+0,0)".toList
    let double := "T(RN,0x1.8p-7,-0x1p+300L,0x0p+0,0)".toList
    let singles := "x\n".toList ++ single
    let mixed := single ++ '\n' :: double
    (∃ l : Layout, l.text = "T(RN, 0x1.8p+3L, inf, 0x0p+0, 0) // 0x1p-2".toList ∧ ∃ xs ys zs,
      Lexeme.Shown l.input.1 xs ∧ Lexeme.Shown l.output.1 ys ∧ Lexeme.Shown l.errorBound.1 zs ∧
      evidence "T(RN, 0x1.8p+3L, inf, 0x0p+0, 0) // 0x1p-2".toList =
        xs ++ ys ++ zs ++ Lexeme.scan "0x1p-2".toList) ∧
    (∃ c, ∃ x : Lexeme, Conversion.convert o singles = .ok c ∧ c.format = .f32 ∧
      x.text = "0x1.8p-7".toList ∧ x.scale.suffix = none ∧ x.fraction.length ≤ 6 ∧
        Text.number 10 x.scale.digits ≤ 127) ∧
    ∃ c, ∃ x : Lexeme, Conversion.convert o mixed = .ok c ∧ c.format = .f64 ∧
      x.text = "-0x1p+300L".toList ∧ x.scale.suffix ≠ some .quad := by
  intro o single double singles mixed
  -- Both lines as they are laid out: no spacing, the same input, an output each.
  let tight : Break := ⟨⟨[], by simp⟩, ⟨[], by simp⟩⟩
  let laid (output : Word Grammar.isFieldChar) : Layout := {
    opening := ⟨[], by simp⟩
    mode := ⟨"RN".toList, by decide, List.all_eq_true.mp rfl⟩
    afterMode := tight
    input := ⟨"0x1.8p-7".toList, by decide, List.all_eq_true.mp rfl⟩
    afterInput := tight
    output
    afterOutput := tight
    errorBound := ⟨"0x0p+0".toList, by decide, List.all_eq_true.mp rfl⟩
    afterErrorBound := tight
    flag := ⟨"0".toList, by decide, List.all_eq_true.mp rfl⟩
    flags := []
    closing := tight
    remark := none }
  refine ⟨?_, ?_, ?_⟩
  · have h : Line.read .f32 .all "T(RN, 0x1.8p+3L, inf, 0x0p+0, 0) // 0x1p-2".toList =
        .ok (.testcase ⟨.nearest, "0x1.800000p+3".toList, "inf".toList, "0".toList, .empty,
          some "0x1p-2".toList⟩) := by decide +kernel
    obtain ⟨l, hl, -, xs, ys, zs, hx, hy, hz, -, he⟩ := evidence_eq_fields.1 _ _ _ _ h
    exact ⟨l, hl.trans (by decide +kernel), xs, ys, zs, hx, hy, hz, he⟩
  · let x : Lexeme := ⟨⟨false, '1', some ['8']⟩, ⟨some '-', ['7'], none⟩⟩
    have hx : x.WellFormed :=
      ⟨⟨rfl, by simp [x]; decide⟩, ⟨by simp [x], by simp [x], List.all_eq_true.mp rfl⟩⟩
    have hc : Conversion.convert o singles =
        .ok (Conversion.ofReading o singles (Conversion.reading o singles)) :=
      Conversion.convert_eq_ok_iff.mpr ⟨by decide +kernel, rfl⟩
    have hf : Conversion.formatFor o singles = .f32 := by decide +kernel
    obtain ⟨hsmall, -⟩ := evidence_eq_fields.2 o _ _ rfl hc single (by decide +kernel)
      (laid ⟨"inf".toList, by decide, List.all_eq_true.mp rfl⟩) (by decide +kernel) x.text
      (List.mem_cons_self ..) x hx rfl
    exact ⟨_, x, hc, hf, rfl, hsmall hf⟩
  · let x : Lexeme := ⟨⟨true, '1', none⟩, ⟨some '+', "300".toList, some .long⟩⟩
    have hx : x.WellFormed :=
      ⟨⟨rfl, by simp [x]⟩, ⟨by simp [x], by simp [x], List.all_eq_true.mp rfl⟩⟩
    have hc : Conversion.convert o mixed =
        .ok (Conversion.ofReading o mixed (Conversion.reading o mixed)) :=
      Conversion.convert_eq_ok_iff.mpr ⟨by decide +kernel, rfl⟩
    have hf : Conversion.formatFor o mixed = .f64 := by decide +kernel
    obtain ⟨-, hquad⟩ := evidence_eq_fields.2 o _ _ rfl hc double (by decide +kernel)
      (laid ⟨x.text, by decide, List.all_eq_true.mp rfl⟩) (by decide +kernel) x.text
      (List.mem_cons_of_mem _ (List.mem_cons_self ..)) x hx rfl
    exact ⟨_, x, hc, hf, rfl, hquad hf⟩

end Inference
end FloatCases
