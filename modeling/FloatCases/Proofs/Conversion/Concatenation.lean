import FloatCases.Proofs.Conversion.Options
import FloatCases.Proofs.Evidence.Demand
import FloatCases.Proofs.Text.Lines

/-!
The conversion of two files in a row. Main statement: it is that of the first file and then that of
the second one, whose lines are counted on, and an inferred format is the wider of the two.
-/
namespace FloatCases

variable {f : FloatFormat} {modes : ModeSet} {n k : Nat} {ls : List Text} {r r' : Reading}
  {e : LineFault}

/-- A fault so many lines later. -/
def LineFault.shift (k : Nat) (e : LineFault) : LineFault :=
  ⟨e.line + k, e.fault⟩

namespace Reading

/-- A reading that is gone on with, if it has no fault. -/
def append (r r' : Reading) : Reading :=
  match r.fault with
  | none => ⟨r.entries ++ r'.entries, r'.fault⟩
  | some _ => r

/-- A reading of the same lines so many lines later. -/
def shift (k : Nat) (r : Reading) : Reading :=
  ⟨r.entries.map fun x => { x with number := x.number + k }, r.fault.map (LineFault.shift k)⟩

theorem append_of_none (h : r.fault = none) (r' : Reading) :
    r.append r' = ⟨r.entries ++ r'.entries, r'.fault⟩ := by
  simp only [append, h]

theorem append_of_some (h : r.fault = some e) (r' : Reading) : r.append r' = r := by
  simp only [append, h]

theorem testcases_append (h : r.fault = none) (r' : Reading) :
    (r.append r').testcases = r.testcases ++ r'.testcases := by
  simp [append_of_none h, testcases]

theorem filtered_append (h : r.fault = none) (r' : Reading) :
    (r.append r').filtered = r.filtered + r'.filtered := by
  simp [append_of_none h, filtered]

theorem unrecognized_append (h : r.fault = none) (r' : Reading) :
    (r.append r').unrecognized = r.unrecognized ++ r'.unrecognized := by
  simp [append_of_none h, unrecognized]

theorem testcases_shift (k : Nat) (r : Reading) : (r.shift k).testcases = r.testcases := by
  simp [shift, testcases, List.filterMap_map]

theorem filtered_shift (k : Nat) (r : Reading) : (r.shift k).filtered = r.filtered := by
  simp [shift, filtered, List.countP_map, Function.comp_def]

theorem unrecognized_shift (k : Nat) (r : Reading) :
    (r.shift k).unrecognized = r.unrecognized.map (· + k) := by
  simp [shift, unrecognized, List.filter_map, Function.comp_def]

/-- Lines in a row are read one part after the other. -/
theorem ofLines_append (f : FloatFormat) (modes : ModeSet) (n : Nat) (ls ls' : List Text) :
    ofLines f modes n (ls ++ ls') =
      (ofLines f modes n ls).append (ofLines f modes (n + ls.length) ls') := by
  induction ls generalizing n with
  | nil => rfl
  | cons text ls ih =>
    cases hr : Line.read f modes text with
    | error e => simp [ofLines, hr, append]
    | ok kind =>
      have hn : n + (text :: ls).length = n + 1 + ls.length := by
        rw [List.length_cons]
        omega
      rw [hn, List.cons_append, ofLines, hr]
      simp only [ih (n + 1), ofLines, hr]
      cases hf : (ofLines f modes (n + 1) ls).fault <;> simp [append, hf]

/-- Lines are read in the same way wherever they stand, but for their numbers. -/
theorem ofLines_add (f : FloatFormat) (modes : ModeSet) (n k : Nat) (ls : List Text) :
    ofLines f modes (n + k) ls = (ofLines f modes n ls).shift k := by
  induction ls generalizing n with
  | nil => rfl
  | cons text ls ih =>
    have hn : n + k + 1 = n + 1 + k := by omega
    cases hr : Line.read f modes text <;>
      simp [ofLines, hr, hn, ih, shift, LineFault.shift]

end Reading

namespace Conversion

variable {o : Options} {s t : Text} {c d : Conversion}

theorem formatFor_append (ho : o.format = none) (hs : Text.Closed s) (t : Text) :
    formatFor o (s ++ t) = (formatFor o s).wider (formatFor o t) := by
  simp only [formatFor, ho, Option.getD_none, Text.lines_append hs, Inference.infer_append]

/-- Two files in a row are read one after the other, both for the format of the whole. -/
theorem reading_append (o : Options) (hs : Text.Closed s) (t : Text) :
    reading o (s ++ t) =
      (Reading.ofLines (formatFor o (s ++ t)) o.modes 1 (Text.lines s)).append
        ((Reading.ofLines (formatFor o (s ++ t)) o.modes 1 (Text.lines t)).shift
          (Text.lines s).length) := by
  rw [reading, ← Reading.ofLines_add, ← Reading.ofLines_append, Text.lines_append hs]

/--
The conversion of two files in a row, the first of which ends with a line feed. A fault of the first
one is reported as it is, and a fault of the second one with the number of its line in the whole. If
both are converted, so is the whole: the counts are added up, the numbers of lines are counted on,
an inferred format is the wider of the two, and for a given format the test cases are those of the
one and then those of the other.
-/
theorem convert_append (o : Options) (hs : Text.Closed s) (t : Text) :
    (∀ e, convert o s = .error e → convert o (s ++ t) = .error e) ∧
    (∀ c e, convert o s = .ok c → convert o t = .error e →
      convert o (s ++ t) = .error ⟨e.line + (Text.lines s).length, e.fault⟩) ∧
    ∀ c d, convert o s = .ok c → convert o t = .ok d →
      ∃ a, convert o (s ++ t) = .ok a ∧ a.filtered = c.filtered + d.filtered ∧
        a.unrecognized = c.unrecognized ++ d.unrecognized.map (· + (Text.lines s).length) ∧
        (o.format = none → a.format = c.format.wider d.format) ∧
        ∀ f, o.format = some f → a.testcases = c.testcases ++ d.testcases := by
  have hr := reading_append o hs t
  generalize hf : formatFor o (s ++ t) = f at hr
  have hfs := Reading.fault_ofLines_options f (formatFor o s) o.modes o.modes 1 (Text.lines s)
  have hft := Reading.fault_ofLines_options f (formatFor o t) o.modes o.modes 1 (Text.lines t)
  refine ⟨fun e he => ?_, fun c e hc he => ?_, fun c d hc hd => ?_⟩
  · rw [convert_eq_error_iff] at he ⊢
    rw [hr, Reading.append_of_some (hfs.trans he), hfs]
    exact he
  · rw [convert_eq_error_iff] at he ⊢
    have hn := hfs.trans (convert_eq_ok_iff.mp hc).1
    rw [hr, Reading.append_of_none hn, Reading.shift, hft, ← reading, he]
    rfl
  · obtain ⟨hcn, rfl⟩ := convert_eq_ok_iff.mp hc
    obtain ⟨hdn, rfl⟩ := convert_eq_ok_iff.mp hd
    have hn := hfs.trans hcn
    have ha : (reading o (s ++ t)).fault = none := by
      rw [hr, Reading.append_of_none hn, Reading.shift, hft, ← reading, hdn]
      rfl
    refine ⟨_, convert_eq_ok_iff.mpr ⟨ha, rfl⟩, ?_, ?_, fun ho => formatFor_append ho hs t,
      fun g ho => ?_⟩
    · change (reading o (s ++ t)).filtered = _
      rw [hr, Reading.filtered_append hn, Reading.filtered_shift,
        Reading.filtered_ofLines_formats f (formatFor o s),
        Reading.filtered_ofLines_formats f (formatFor o t)]
      rfl
    · change (reading o (s ++ t)).unrecognized = _
      rw [hr, Reading.unrecognized_append hn, Reading.unrecognized_shift,
        Reading.unrecognized_ofLines_formats f (formatFor o s),
        Reading.unrecognized_ofLines_formats f (formatFor o t)]
      rfl
    · have hg : ∀ u, formatFor o u = g := fun u => by rw [formatFor, ho, Option.getD_some]
      obtain rfl : g = f := (hg _).symm.trans hf
      change (reading o (s ++ t)).testcases = (reading o s).testcases ++ (reading o t).testcases
      rw [hr, Reading.testcases_append hn, Reading.testcases_shift, reading, reading, hg, hg]

/-- A line that is not recognized, then a test case for a wider format and a line like the first. -/
theorem convert_append_widened :
    let o : Options := ⟨none, .all, "gen".toList⟩
    let s := "x\n".toList
    let t := "T(RN, 0x1p+0L, inf, 0x0p+0, 0)\ny".toList
    Text.Closed s ∧ ∃ c d a, convert o s = .ok c ∧ convert o t = .ok d ∧
      convert o (s ++ t) = .ok a ∧ a.filtered = c.filtered + d.filtered ∧
      a.unrecognized = c.unrecognized ++ d.unrecognized.map (· + 1) ∧
      a.format = c.format.wider d.format ∧ c.format = .f32 ∧ d.format = .f64 := by
  intro o s t
  have hs : Text.Closed s := Or.inr rfl
  have hc : convert o s = .ok _ := rfl
  have hd : convert o t = .ok _ := rfl
  obtain ⟨a, ha, hfiltered, hunrecognized, hformat, -⟩ :=
    (convert_append o hs t).2.2 _ _ hc hd
  exact ⟨hs, _, _, a, hc, hd, ha, hfiltered, hunrecognized, hformat rfl, by decide +kernel,
    by decide +kernel⟩

end Conversion
end FloatCases
