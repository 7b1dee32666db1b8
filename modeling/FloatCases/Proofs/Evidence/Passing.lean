import FloatCases.Proofs.Evidence.Widest
import FloatCases.Proofs.Line.Passing

/-!
The evidence in lines that are passed over. Main statement: an inferred format is that of the test
cases or that of the lines that are passed over, whichever is wider, so that the test cases alone
decide if no other line opens the fields of one; a comment that does counts like a test case.
-/
namespace FloatCases

variable {f : FloatFormat} {line s : Text}

namespace Line

/-- Whether a line is a test case, if also one that is refused. -/
def isCase (f : FloatFormat) (line : Text) : Bool :=
  match read f .all line with
  | .ok kind => !kind.isPassed
  | .error _ => true

/-- The lines that are no test cases are passed over for all options. -/
theorem isCase_eq_false_iff : isCase f line = false ↔ Passes line := by
  constructor
  · intro h
    unfold isCase at h
    split at h
    · rename_i kind hr
      exact passes_of_read hr (by simpa using h)
    · nomatch h
  · rintro ⟨kind, hk, hr⟩
    simp [isCase, hr, hk]

theorem read_slashes (f : FloatFormat) (modes : ModeSet) (s : Text) :
    read f modes ("//".toList ++ s) = .ok comment := by
  have ht : Text.trim ("//".toList ++ s) = "//".toList ++ Text.trimEnd s := by
    rw [show "//".toList ++ s = '/' :: '/' :: s from rfl, Text.trim_cons (by decide),
      Text.trimEnd_cons (by decide)]
    rfl
  exact read_eq_comment_iff.mpr (ht ▸ List.prefix_append _ _)

end Line

namespace Inference

theorem afterOpening_eq_nil (h : ¬ "T(".toList <:+: s) : afterOpening s = [] := by
  induction s with
  | nil => rfl
  | cons c s ih =>
    have hs : ¬ "T(".toList <:+: s := fun hi => h (List.infix_cons hi)
    rw [afterOpening, ih hs]
    rintro s' rfl rfl
    exact h (List.prefix_append _ s').isInfix

/-- A line that does not open the fields of a test case has no evidence. -/
theorem evidence_eq_nil (h : ¬ "T(".toList <:+: line) : evidence line = [] := by
  rw [evidence, afterOpening_eq_nil h, Lexeme.scan_nil]

/-- A line has the same evidence behind the slashes of a comment. -/
theorem evidence_slashes (s : Text) : evidence ("//".toList ++ s) = evidence s :=
  rfl

/-- The format of a file is the wider of those of its lines with a property and of the others. -/
theorem infer_filter_wider (p : Text → Bool) (lines : List Text) :
    infer lines = (infer (lines.filter p)).wider (infer (lines.filter fun line => !p line)) := by
  rw [← infer_append]
  exact infer_congr fun line => (List.filter_append_perm p lines).mem_iff.symm

/-- The lines with a property decide about the format if they are as wide as the others ask for. -/
theorem infer_eq_infer_filter_iff (p : Text → Bool) (lines : List Text) :
    infer lines = infer (lines.filter p) ↔ ∀ line ∈ lines, p line = false →
      ∀ x ∈ evidence line, x.demand.bits ≤ (infer (lines.filter p)).bits := by
  constructor
  · intro h line hl _ x hx
    exact (bits_demand_le hl hx).trans_eq (congrArg FloatFormat.bits h)
  · intro h
    have hle := bits_infer_mono (List.filter_subset_self (p := p) lines)
    refine FloatFormat.bits_injective (le_antisymm ?_ hle)
    refine bits_infer_le_iff.mpr ⟨(bits_infer_le_iff.mp le_rfl).1, fun x hx => ?_⟩
    obtain ⟨line, hl, hx⟩ := List.mem_flatMap.mp hx
    cases hp : p line with
    | true => exact bits_demand_le (List.mem_filter.mpr ⟨hl, hp⟩) hx
    | false => exact h line hl hp x hx

/--
The format of a file is the wider of those of its test cases and of its other lines. So the test
cases alone decide about it just if no line that is passed over asks for more than they do, and this
is so if none opens the fields of a test case. But a file of which all lines are made comments keeps
its format, though there are no test cases in it.
-/
theorem infer_of_passed_lines (f : FloatFormat) (lines : List Text) :
    infer lines = (infer (lines.filter (Line.isCase f))).wider
      (infer (lines.filter fun line => !Line.isCase f line)) ∧
    (infer lines = infer (lines.filter (Line.isCase f)) ↔
      ∀ line ∈ lines, Line.Passes line → ∀ x ∈ evidence line,
        x.demand.bits ≤ (infer (lines.filter (Line.isCase f))).bits) ∧
    ((∀ line ∈ lines, Line.Passes line → ¬ "T(".toList <:+: line) →
      infer lines = infer (lines.filter (Line.isCase f))) ∧
    infer (lines.map fun line => "//".toList ++ line) = infer lines ∧
      ∀ line ∈ lines.map fun line => "//".toList ++ line,
        ∀ modes, Line.read f modes line = .ok .comment := by
  have hcases := infer_eq_infer_filter_iff (Line.isCase f) lines
  simp only [Line.isCase_eq_false_iff] at hcases
  refine ⟨infer_filter_wider _ lines, hcases, fun h => hcases.mpr fun line hl hp x hx => ?_, ?_, ?_⟩
  · rw [evidence_eq_nil (h line hl hp)] at hx
    exact absurd hx List.not_mem_nil
  · simp only [infer, List.flatMap_map, evidence_slashes]
  · intro line hl modes
    obtain ⟨s, -, rfl⟩ := List.mem_map.mp hl
    exact Line.read_slashes f modes s

/-- A numeral in a comment does not count, unless the fields of a test case open before it. -/
theorem infer_of_passed_lines_comments :
    let narrow := "T(RN, 0x1.8p+1, inf, 0x0p+0, 0)".toList
    let remark := "// see 0x1p-1022".toList
    let quad := "T(RN, 0x1p+0Q, 0x1p+0Q, 0x0p+0, 0)".toList
    infer [remark, narrow] = .f32 ∧ infer ["//".toList ++ quad] = .f128 ∧
      ∀ modes, Line.read .f32 modes ("//".toList ++ quad) = .ok .comment := by
  intro narrow remark quad
  obtain ⟨-, -, hquiet, -⟩ := infer_of_passed_lines .f32 [remark, narrow]
  obtain ⟨-, -, -, hsame, hread⟩ := infer_of_passed_lines .f32 [quad]
  have hopen : ∀ line ∈ [remark, narrow], Line.Passes line → ¬ "T(".toList <:+: line := by
    intro line hl hp
    rcases List.mem_cons.mp hl with rfl | hl
    · decide
    · obtain rfl := List.mem_singleton.mp hl
      exact absurd (Line.isCase_eq_false_iff (f := .f32).mpr hp) (by decide +kernel)
  exact ⟨(hquiet hopen).trans (by decide +kernel), hsame.trans (by decide +kernel),
    hread _ List.mem_cons_self⟩

/-- A test case that is made a comment can make the format of a file wider. -/
theorem not_infer_eq_infer_cases :
    ¬ ∀ (f : FloatFormat) (lines : List Text),
      infer lines = infer (lines.filter (Line.isCase f)) := by
  intro h
  have hq := h .f32 ["// T(RN, 0x1p+0Q, 0x1p+0Q, 0x0p+0, 0)".toList,
    "T(RN, 0x1p+0, 0x1p+0, 0x0p+0, 0)".toList]
  exact absurd hq (by decide +kernel)

end Inference
end FloatCases
