import FloatCases.Proofs.Listing.Lines
import FloatCases.Proofs.Literal.Value
import FloatCases.Proofs.Table.Rows

/-!
The structure of a whole conversion. Main statement: the listing is the head and then the lines of
the file in their order, the test cases among them as the rows of a table.
-/
namespace FloatCases

variable {f : FloatFormat} {modes : ModeSet} {line s s' : Text} {l : Layout} {t : Testcase}
  {o : Options} {source : Text} {c : Conversion} {kinds : List Line} {texts : List Text}

theorem Literal.newline_not_mem_of_canonicalize (h : Literal.canonicalize f s = .ok s') :
    '\n' ∉ s' := fun hn =>
  absurd (Literal.isCanonicalChar_of_canonicalize h '\n' hn) (by decide)

/-- What is read of a line without a line feed has none in its fields. -/
theorem Layout.Says.oneLine (h : l.Says f t) (hn : '\n' ∉ l.text) : t.OneLine where
  input := Literal.newline_not_mem_of_canonicalize h.input
  output := Literal.newline_not_mem_of_canonicalize h.output
  errorBound := Literal.newline_not_mem_of_canonicalize h.errorBound
  comment := by
    intro s hs hc
    refine hn (List.mem_append_right _ ?_)
    rw [h.comment] at hs
    obtain ⟨hs, -⟩ := Option.filter_eq_some_iff.mp hs
    obtain ⟨r, hr, rfl⟩ := Option.map_eq_some_iff.mp hs
    rw [hr, Remark.text]
    exact List.mem_append_right _ (List.mem_append_right _ hc)

/-- The test cases of lines without line feeds have none in their fields. -/
theorem Line.ReadAs.oneLine (h : Line.ReadAs f modes texts kinds)
    (hn : ∀ text ∈ texts, '\n' ∉ text) : ∀ t ∈ kinds.filterMap Line.testcase?, t.OneLine := by
  induction h with
  | nil => simp
  | @cons text kind texts kinds hr _ ih =>
    obtain ⟨ht, hts⟩ := List.forall_mem_cons.mp hn
    intro t hm
    rcases List.mem_filterMap.mp hm with ⟨kind', hk, hkt⟩
    rcases List.mem_cons.mp hk with rfl | hk
    · obtain rfl : kind' = .testcase t := by cases kind' <;> simp_all [Line.testcase?]
      obtain ⟨-, l, hl, hs⟩ := Line.read_eq_testcase_iff.mp hr
      exact hs.oneLine fun hc => ht (Text.mem_of_mem_trim (hl ▸ hc))
    · exact ih hts t (List.mem_filterMap.mpr ⟨kind', hk, hkt⟩)

namespace Conversion

/--
The listing of a file that is converted. Every line of the file before the first test case that is
kept stands before the table, and every later one in it, each as one line; the test cases have the
rows of the table in order, each its own, and those that are not kept are left out.
-/
theorem output_structure (h : convert o source = .ok c) :
    ∃ kinds : List Line, Line.ReadAs c.format o.modes (Text.lines source) kinds ∧
      c.testcases = kinds.filterMap Line.testcase? ∧ c.filtered = kinds.countP Line.isFiltered ∧
      c.output = Header.render ⟨o.generator, c.format⟩ ++
        Text.unlines (Listing.lines (Table.rows c.testcases) (Text.lines source) kinds) ∧
      (∀ line ∈ Listing.lines (Table.rows c.testcases) (Text.lines source) kinds, '\n' ∉ line) ∧
      (∀ k t, kinds[k]? = some (.testcase t) → Listing.firstKept kinds ≤ k ∧
        Listing.rank kinds k < (Table.rows c.testcases).length ∧
        c.testcases[Listing.rank kinds k]? = some t) ∧
      ((kinds.zipIdx.filter fun x => x.1.isKept).map fun x => Listing.rank kinds x.2) =
        List.range c.testcases.length ∧
      (Listing.lines (Table.rows c.testcases) (Text.lines source) kinds).length + c.filtered =
        (Text.lines source).length + 2 +
          (if Listing.before (Text.lines source) kinds = [] then 0 else 1) ∧
      (c.testcases = [] →
        Listing.before (Text.lines source) kinds =
          (((Text.lines source).zip kinds).filter fun x => !x.2.isFiltered).map (·.1) ∧
        Listing.inside (Table.rows c.testcases) (Text.lines source) kinds = []) := by
  have hread := readAs_of_convert h
  have hlen := hread.length_eq
  obtain ⟨ht, hf, ho⟩ := eq_of_convert h
  have hn : ∀ line ∈ Text.lines source, '\n' ∉ line := fun _ => Text.newline_not_mem_of_mem_lines
  have hrows : ∀ row ∈ Table.rows c.testcases, '\n' ∉ row :=
    Table.newline_not_mem_rows (ht ▸ hread.oneLine hn)
  refine ⟨_, hread, ht, hf, ?_, Listing.newline_not_mem_lines hn hrows, fun k t hk => ?_, ?_, ?_,
    fun hc => ?_⟩
  · rw [ho, Listing.write_eq hread _ (by rw [Table.length_rows, ht])]
  · have hr := Listing.getElem?_rank hk
    rw [← ht] at hr
    refine ⟨Listing.firstKept_le hk, ?_, hr⟩
    rw [Table.length_rows]
    exact (List.getElem?_eq_some_iff.mp hr).1
  · have hr := Listing.ranks_eq_range' 0 (reading o source).kinds
    simp only [Nat.zero_add] at hr
    rw [hr, ht, List.range_eq_range']
  · rw [hf, Listing.length_lines_add_filtered _ hlen]
  · have hfirst := Listing.firstKept_eq_length (ht.symm.trans hc)
    constructor
    · rw [Listing.before, hfirst, List.take_of_length_le (by simp)]
    · rw [Listing.inside, hfirst, Listing.numbered, List.drop_of_length_le (by simp),
        List.flatMap_nil]

/-- A file with a comment, a test case that is not kept, one that is and an empty line. -/
theorem output_structure_mixed :
    let o : Options := ⟨some .f32, .only .nearest, "gen".toList⟩
    let source := "// a\nT(RU, inf, inf, 0x0p+0, 0)\nT(RN, inf, nan, 0x0p+0, 0)\n \n".toList
    ∃ c, convert o source = .ok c ∧ ∃ kinds : List Line,
      c.testcases = kinds.filterMap Line.testcase? ∧
      c.output = Header.render ⟨o.generator, c.format⟩ ++
        Text.unlines (Listing.lines (Table.rows c.testcases) (Text.lines source) kinds) := by
  intro o source
  have h : convert o source = .ok _ := rfl
  obtain ⟨kinds, -, ht, -, ho, -⟩ := output_structure h
  exact ⟨_, h, kinds, ht, ho⟩

end Conversion
end FloatCases
