import FloatCases.Proofs.Conversion.Structure
import FloatCases.Proofs.Listing.Inert
import FloatCases.Proofs.Text.Lines

/-!
A listing as a file to convert. Main statement: the conversion of a listing succeeds, finds no test
case in it, and writes it as it is before a table without rows.
-/
namespace FloatCases

variable {o : Options} {source : Text} {c : Conversion} {ls : List Text}

/-- Lines that are passed over are read, whatever the options are. -/
theorem Line.exists_readAs_of_passes (h : ∀ line ∈ ls, Passes line) (f : FloatFormat)
    (modes : ModeSet) :
    ∃ kinds : List Line, (∀ kind ∈ kinds, kind.isPassed = true) ∧ ReadAs f modes ls kinds := by
  induction ls with
  | nil => exact ⟨[], by simp, List.Forall₂.nil⟩
  | cons line ls ih =>
    obtain ⟨⟨kind, hk, hr⟩, hls⟩ := List.forall_mem_cons.mp h
    obtain ⟨kinds, hks, hrs⟩ := ih hls
    exact ⟨kind :: kinds, List.forall_mem_cons.mpr ⟨hk, hks⟩, List.Forall₂.cons (hr f modes) hrs⟩

namespace Conversion

/-- A listing is some lines, each of which is read again as it is and passed over then. -/
theorem exists_inert_of_convert (hr : '\r' ∉ source) (hg : '\n' ∉ o.generator)
    (h : convert o source = .ok c) :
    ∃ ls, ls ≠ [] ∧ (∀ line ∈ ls, Line.Inert line) ∧ c.output = Text.unlines ls := by
  have hread := readAs_of_convert h
  obtain ⟨ht, -, ho⟩ := eq_of_convert h
  have hn : ∀ line ∈ Text.lines source, '\n' ∉ line := fun _ => Text.newline_not_mem_of_mem_lines
  have hreturn : ∀ line ∈ Text.lines source, line.getLast? ≠ some '\r' := fun line hl hlast =>
    hr (Text.mem_of_mem_lines hl (List.mem_of_getLast? hlast))
  have hrows := Table.inert_of_mem_rows (ht ▸ hread.oneLine hn)
  refine ⟨Header.lines ⟨o.generator, c.format⟩ ++ Listing.lines (Table.rows c.testcases)
    (Text.lines source) (reading o source).kinds, by simp [Listing.lines], ?_, ?_⟩
  · exact List.forall_mem_append.mpr
      ⟨Header.inert_of_mem_lines hg, Listing.inert_of_mem_lines hread hn hreturn hrows⟩
  · rw [ho, Listing.write_eq hread _ (by rw [Table.length_rows, ht]), Header.render,
      Text.unlines_append]

/-- Lines that are passed over have a listing in which they stand before a table without rows. -/
theorem convert_unlines_of_inert (hne : ls ≠ []) (hls : ∀ line ∈ ls, Line.Inert line)
    (o : Options) :
    ∃ c, convert o (Text.unlines ls) = .ok c ∧ c.testcases = [] ∧ c.filtered = 0 ∧
      c.output = Header.render ⟨o.generator, c.format⟩ ++ Text.unlines ls ++
        "\nconst testcases = .\x7b\n\x7d;\n".toList := by
  have hlines : Text.lines (Text.unlines ls) = ls :=
    Text.lines_unlines (fun line hl => (hls line hl).newline_notMem)
      fun line hl => (hls line hl).getLast?_ne
  obtain ⟨kinds, hpass, hread⟩ := Line.exists_readAs_of_passes
    (fun line hl => (hls line hl).passes) (formatFor o (Text.unlines ls)) o.modes
  have hread' : Line.ReadAs (formatFor o (Text.unlines ls)) o.modes
      (Text.lines (Text.unlines ls)) kinds := by rwa [hlines]
  obtain ⟨c, hc, hk⟩ := convert_of_readAs hread'
  obtain ⟨ht, hf, ho⟩ := eq_of_convert hc
  rw [hk] at ht hf ho
  have hfilt : kinds.countP Line.isFiltered = 0 :=
    List.countP_eq_zero.mpr fun kind h => by simp [(Line.isPassed_iff.mp (hpass kind h)).2]
  refine ⟨c, hc, ht.trans (Line.filterMap_testcase?_of_isPassed hpass), hf.trans hfilt, ?_⟩
  rw [ho, hlines, Listing.write_eq hread _ (by rw [Table.length_rows, ht]),
    Listing.lines_of_isPassed hread.length_eq hpass hne, Text.unlines_append, List.append_assoc]
  rfl

/--
The listing of a file without carriage returns, as a file to convert with the same options: it has
no test cases, and all of it stands before the table.
-/
theorem convert_output {f : FloatFormat} (hf : o.format = some f) (hr : '\r' ∉ source)
    (hg : '\n' ∉ o.generator) (h : convert o source = .ok c) :
    ∃ c', convert o c.output = .ok c' ∧ c'.testcases = [] ∧ c'.filtered = 0 ∧
      c'.output = Header.render ⟨o.generator, f⟩ ++ c.output ++
        "\nconst testcases = .\x7b\n\x7d;\n".toList := by
  obtain ⟨ls, hne, hls, hout⟩ := exists_inert_of_convert hr hg h
  obtain ⟨c', hc, ht, hfilt, ho⟩ := convert_unlines_of_inert hne hls o
  have hformat : c'.format = f := by
    rw [format_of_convert hc, formatFor, hf, Option.getD_some]
  rw [hformat] at ho
  exact ⟨c', hout ▸ hc, ht, hfilt, hout ▸ ho⟩

/-- A file with a comment, a test case that is kept, one that is not, and an unrecognized line. -/
theorem convert_output_mixed :
    let o : Options := ⟨some .f32, .only .nearest, "gen".toList⟩
    let source := "// a\nT(RN, inf, nan, 0x0p+0, 0)\nT(RU, inf, inf, 0x0p+0, 0)\n  b\n".toList
    '\r' ∉ source ∧ '\n' ∉ o.generator ∧
      ∃ c c', convert o source = .ok c ∧ convert o c.output = .ok c' ∧ c'.testcases = [] ∧
        c'.filtered = 0 ∧
        c'.output = Header.render ⟨o.generator, .f32⟩ ++ c.output ++
          "\nconst testcases = .\x7b\n\x7d;\n".toList := by
  intro o source
  have hr : '\r' ∉ source := by decide
  have hg : '\n' ∉ o.generator := by decide
  have h : convert o source = .ok _ := rfl
  obtain ⟨c', hc, hagain⟩ := convert_output rfl hr hg h
  exact ⟨hr, hg, _, c', h, hc, hagain⟩

end Conversion
end FloatCases
