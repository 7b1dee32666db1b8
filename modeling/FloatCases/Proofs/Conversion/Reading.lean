import FloatCases.Conversion
import Mathlib.Data.List.Forall2

/-!
The reading of a whole file. Main statement: a conversion that succeeds has read every line, and its
outcome depends on the lines by their kinds.
-/
namespace FloatCases

variable {f : FloatFormat} {modes : ModeSet} {n : Nat} {ls : List Text} {o : Options}
  {source : Text} {c : Conversion}

/-- Lines are read as lines of given kinds, one by one. -/
def Line.ReadAs (f : FloatFormat) (modes : ModeSet) : List Text → List Line → Prop :=
  List.Forall₂ fun text kind => read f modes text = .ok kind

theorem Line.ReadAs.exists_read {kinds : List Line} (h : ReadAs f modes ls kinds) {line : Text}
    (hl : line ∈ ls) : ∃ kind, read f modes line = .ok kind := by
  induction h with
  | nil => exact absurd hl List.not_mem_nil
  | cons hr _ ih =>
    rcases List.mem_cons.mp hl with rfl | hl
    · exact ⟨_, hr⟩
    · exact ih hl

theorem Line.ReadAs.exists_text {kinds : List Line} (h : ReadAs f modes ls kinds) {kind : Line}
    (hk : kind ∈ kinds) : ∃ text ∈ ls, read f modes text = .ok kind := by
  induction h with
  | nil => exact absurd hk List.not_mem_nil
  | @cons text _ _ _ hr _ ih =>
    rcases List.mem_cons.mp hk with rfl | hk
    · exact ⟨text, List.mem_cons_self, hr⟩
    · obtain ⟨text', ht, hr'⟩ := ih hk
      exact ⟨text', List.mem_cons_of_mem text ht, hr'⟩

namespace Reading

/-- Without a fault all lines have been read, in order. -/
theorem ofLines_readAs (h : (ofLines f modes n ls).fault = none) :
    Line.ReadAs f modes ls ((ofLines f modes n ls).entries.map (·.line)) := by
  induction ls generalizing n with
  | nil => exact List.Forall₂.nil
  | cons text ls ih =>
    cases hr : Line.read f modes text with
    | error e => simp [ofLines, hr] at h
    | ok kind =>
      simp only [ofLines, hr] at h ⊢
      exact List.Forall₂.cons hr (ih h)

/-- The kinds of the lines, in order. -/
def kinds (r : Reading) : List Line :=
  r.entries.map (·.line)

/-- Lines that are read as lines of given kinds are read without a fault. -/
theorem ofLines_of_readAs {kinds : List Line} (h : Line.ReadAs f modes ls kinds) (n : Nat) :
    (ofLines f modes n ls).fault = none ∧ (ofLines f modes n ls).kinds = kinds := by
  induction h generalizing n with
  | nil => exact ⟨rfl, rfl⟩
  | @cons text kind texts _ hr _ ih =>
    obtain ⟨hf, hk⟩ := ih (n + 1)
    have hc : ofLines f modes n (text :: texts) = ⟨⟨n, text, kind⟩ ::
        (ofLines f modes (n + 1) texts).entries, (ofLines f modes (n + 1) texts).fault⟩ := by
      simp [ofLines, hr]
    rw [hc]
    exact ⟨hf, by rw [← hk]; rfl⟩

theorem testcases_eq (r : Reading) : r.testcases = r.kinds.filterMap Line.testcase? := by
  simp [testcases, kinds]

theorem filtered_eq (r : Reading) : r.filtered = r.kinds.countP Line.isFiltered := by
  simp [filtered, kinds, Function.comp_def, List.countP_map]

end Reading

namespace Conversion

/-- A conversion that succeeds has read all lines. -/
theorem convert_eq_ok_iff :
    convert o source = .ok c ↔
      (reading o source).fault = none ∧ ofReading o source (reading o source) = c := by
  unfold convert
  cases h : (reading o source).fault <;> simp [h]

/-- A conversion that fails has come to a line with a fault. -/
theorem convert_eq_error_iff {e : LineFault} :
    convert o source = .error e ↔ (reading o source).fault = some e := by
  unfold convert
  cases h : (reading o source).fault <;> simp [h]

/-- A conversion succeeds if all lines are read, and their kinds are those of its reading. -/
theorem convert_of_readAs {kinds : List Line}
    (h : Line.ReadAs (formatFor o source) o.modes (Text.lines source) kinds) :
    ∃ c, convert o source = .ok c ∧ (reading o source).kinds = kinds := by
  obtain ⟨hf, hk⟩ := Reading.ofLines_of_readAs h 1
  exact ⟨_, convert_eq_ok_iff.mpr ⟨hf, rfl⟩, hk⟩

theorem format_of_convert (h : convert o source = .ok c) : c.format = formatFor o source := by
  obtain ⟨-, rfl⟩ := convert_eq_ok_iff.mp h
  rfl

theorem readAs_of_convert (h : convert o source = .ok c) :
    Line.ReadAs c.format o.modes (Text.lines source) (reading o source).kinds := by
  obtain ⟨hf, rfl⟩ := convert_eq_ok_iff.mp h
  exact Reading.ofLines_readAs hf

/-- The outcome of a conversion depends on the kinds of the lines and on their texts alone. -/
theorem eq_of_convert (h : convert o source = .ok c) :
    c.testcases = (reading o source).kinds.filterMap Line.testcase? ∧
    c.filtered = (reading o source).kinds.countP Line.isFiltered ∧
    c.output = Listing.write ⟨o.generator, c.format⟩ (Text.lines source)
      (Reading.slotsFrom 0 (reading o source).kinds) (Table.rows c.testcases) := by
  obtain ⟨-, rfl⟩ := convert_eq_ok_iff.mp h
  exact ⟨Reading.testcases_eq _, Reading.filtered_eq _, rfl⟩

end Conversion
end FloatCases
