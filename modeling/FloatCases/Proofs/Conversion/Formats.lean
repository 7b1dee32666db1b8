import FloatCases.Proofs.Conversion.Options
import FloatCases.Proofs.Line.Recognition
import FloatCases.Proofs.Literal.Padding

/-!
What the format changes in a conversion. Main statement: for a wider format the lines are of the
same kinds, and the test cases are the same up to zeros at the end of the fractions in inputs and
outputs.
-/
namespace FloatCases

variable {f g : FloatFormat} {modes : ModeSet} {texts : List Text} {line text t u : Text}
  {kind kind' : Line} {kinds kinds' : List Line}

/-- The same test case with more zeros at the end of fractions in its input and output. -/
structure Testcase.Widened (x y : Testcase) : Prop where
  mode : y.mode = x.mode
  input : Literal.Widened x.input y.input
  output : Literal.Widened x.output y.output
  errorBound : y.errorBound = x.errorBound
  flags : y.flags = x.flags
  comment : y.comment = x.comment

namespace Statement

variable {st : Statement} {x y : Testcase}

theorem checkLiteral_widened {s : Span} (hfg : f.hexDigits ≤ g.hexDigits)
    (ht : checkLiteral f text s = .ok t) (hu : checkLiteral g text s = .ok u) :
    Literal.Widened t u := by
  obtain ⟨l, hl, rfl⟩ := Literal.canonicalize_eq_ok_iff.mp (checkLiteral_eq_ok_iff.mp ht)
  obtain ⟨l', hl', rfl⟩ := Literal.canonicalize_eq_ok_iff.mp (checkLiteral_eq_ok_iff.mp hu)
  obtain rfl : l = l' := Option.some.inj (hl.symm.trans hl')
  exact Literal.widened_spelling (Literal.read?_eq_some_iff.mp hl) hfg

/-- The checks give the same for a wider format, as the error bound has a format of its own. -/
theorem check_widened (hfg : f.hexDigits ≤ g.hexDigits) (hx : st.check f text = .ok x)
    (hy : st.check g text = .ok y) : x.Widened y := by
  obtain ⟨hxm, hxi, hxo, hxe, hxf, hxc⟩ := check_eq_ok_iff.mp hx
  obtain ⟨hym, hyi, hyo, hye, hyf, hyc⟩ := check_eq_ok_iff.mp hy
  exact {
    mode := Except.ok.inj (hym.symm.trans hxm)
    input := checkLiteral_widened hfg hxi hyi
    output := checkLiteral_widened hfg hxo hyo
    errorBound := Except.ok.inj (hye.symm.trans hxe)
    flags := Except.ok.inj (hyf.symm.trans hxf)
    comment := hyc.symm.trans hxc }

end Statement

namespace Line

/-- The test cases of two lines, if they have any, differ in zeros at most. -/
def Widened (kind kind' : Line) : Prop :=
  Option.Rel Testcase.Widened kind.testcase? kind'.testcase?

theorem widened_ofTestcase {x y : Testcase} (h : x.Widened y) (modes : ModeSet) :
    (ofTestcase modes x).Widened (ofTestcase modes y) := by
  unfold ofTestcase Widened
  rw [h.mode]
  split
  · exact Option.Rel.some h
  · exact Option.Rel.none

theorem widened_of_isPassed (h : kind.isPassed = true) : kind.Widened kind := by
  unfold Widened
  rw [(isPassed_iff.mp h).1]
  exact Option.Rel.none

/-- A line is read for a wider format as for a narrower one, up to zeros. -/
theorem read_widened (hfg : f.hexDigits ≤ g.hexDigits) (hf : read f modes line = .ok kind)
    (hg : read g modes line = .ok kind') : kind.Widened kind' := by
  rcases read_cases_options line with ⟨k, hk, hr⟩ | ⟨st, hr⟩
  · obtain rfl := Except.ok.inj ((hr f modes).symm.trans hf)
    obtain rfl := Except.ok.inj ((hr g modes).symm.trans hg)
    exact widened_of_isPassed hk
  · rw [hr] at hf hg
    cases hx : st.check f (Text.trim line) with
    | error e => simp [hx, Except.map] at hf
    | ok x =>
      cases hy : st.check g (Text.trim line) with
      | error e => simp [hy, Except.map] at hg
      | ok y =>
        rw [hx] at hf
        rw [hy] at hg
        obtain rfl := Except.ok.inj hf
        obtain rfl := Except.ok.inj hg
        exact widened_ofTestcase (Statement.check_widened hfg hx hy) modes

theorem ReadAs.widened (hfg : f.hexDigits ≤ g.hexDigits) (hf : ReadAs f modes texts kinds)
    (hg : ReadAs g modes texts kinds') : List.Forall₂ Widened kinds kinds' := by
  induction hf generalizing kinds' with
  | nil =>
    cases hg
    exact List.Forall₂.nil
  | cons hr _ ih =>
    cases hg with
    | cons hr' hg => exact List.Forall₂.cons (read_widened hfg hr hr') (ih hg)

end Line

namespace Conversion

variable {generator source : Text} {c d : Conversion}

/--
A file that is converted for two formats, one of them with more hex digits: the same lines are
recognized and kept, and each test case differs at most in the zeros at the end of the fractions of
its input and its output.
-/
theorem convert_formats (hfg : f.hexDigits ≤ g.hexDigits)
    (hc : convert ⟨some f, modes, generator⟩ source = .ok c)
    (hd : convert ⟨some g, modes, generator⟩ source = .ok d) :
    d.unrecognized = c.unrecognized ∧ d.filtered = c.filtered ∧
      d.testcases.length = c.testcases.length ∧
      List.Forall₂ Testcase.Widened c.testcases d.testcases := by
  have hread := readAs_of_convert hc
  have hread' := readAs_of_convert hd
  rw [format_of_convert hc] at hread
  rw [format_of_convert hd] at hread'
  have hkinds := hread.widened hfg hread'
  have htestcases : List.Forall₂ Testcase.Widened c.testcases d.testcases := by
    rw [(eq_of_convert hc).1, (eq_of_convert hd).1]
    exact List.rel_filterMap (fun _ _ h => h) hkinds
  obtain ⟨-, rfl⟩ := convert_eq_ok_iff.mp hc
  obtain ⟨-, rfl⟩ := convert_eq_ok_iff.mp hd
  refine ⟨?_, ?_, htestcases.length_eq.symm, htestcases⟩
  · exact Reading.unrecognized_ofLines_formats g f modes 1 _
  · exact Reading.filtered_ofLines_formats g f modes 1 _

/-- A test case that is kept, one that is not, and a line that is not recognized. -/
theorem convert_formats_double :
    let source := "x\nT(RN, 0x1.8p+1, inf, 0x1p-1, INEXACT)\nT(RU, inf, inf, 0x0p+0, 0)\n".toList
    FloatFormat.f32.hexDigits ≤ FloatFormat.f64.hexDigits ∧
      ∃ c d, convert ⟨some .f32, .only .nearest, []⟩ source = .ok c ∧
        convert ⟨some .f64, .only .nearest, []⟩ source = .ok d ∧
        c.unrecognized = [1] ∧ d.unrecognized = c.unrecognized ∧ c.filtered = 1 ∧
        d.filtered = c.filtered ∧
        c.testcases.map (·.input) = ["0x1.800000p+1".toList] ∧
        d.testcases.map (·.input) = ["0x1.8000000000000p+1".toList] ∧
        List.Forall₂ Testcase.Widened c.testcases d.testcases := by
  intro source
  have hfg : FloatFormat.f32.hexDigits ≤ FloatFormat.f64.hexDigits := by decide
  have hc : convert ⟨some .f32, .only .nearest, []⟩ source = .ok _ := rfl
  have hd : convert ⟨some .f64, .only .nearest, []⟩ source = .ok _ := rfl
  obtain ⟨hu, hf, -, ht⟩ := convert_formats hfg hc hd
  exact ⟨hfg, _, _, hc, hd, rfl, hu, rfl, hf, by decide +kernel, by decide +kernel, ht⟩

end Conversion
end FloatCases
