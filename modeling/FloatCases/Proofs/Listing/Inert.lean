import FloatCases.Proofs.Line.Passing
import FloatCases.Proofs.Listing.Lines
import FloatCases.Proofs.Table.Rows

/-!
The lines of a listing, read again. Main statement: every line that is written can be read again and
is passed over then, and what is passed over stands before a table without rows.
-/
namespace FloatCases

variable {f : FloatFormat} {modes : ModeSet} {texts rows : List Text} {kinds : List Line}
  {text : Text} {kind : Line}

open Line (Inert isPlain inert_nil inert_of_isPlain)

namespace Header

theorem inert_modeLine (m : RoundingMode) : Inert (modeLine m) := by
  cases m <;> exact inert_of_isPlain (by decide)

theorem inert_flagLine {x : Text × Nat} (hx : x ∈ flagValues) : Inert (flagLine x) := by
  rcases List.mem_cons.mp hx with rfl | hx
  · exact inert_of_isPlain (by decide)
  · obtain ⟨flag, -, rfl⟩ := List.mem_map.mp hx
    cases flag <;> exact inert_of_isPlain (by decide)

/-- The lines at the head of a listing, if the name of the program is of one line. -/
theorem inert_of_mem_lines {h : Header} (hg : '\n' ∉ h.generator) :
    ∀ line ∈ h.lines, Inert line := by
  obtain ⟨generator, format⟩ := h
  have hgenerator : Inert ("// the ".toList ++ generator
      ++ " script. Comments in the original file (including".toList) := by
    refine inert_of_isPlain ?_
    have hb : Text.isBlank '/' = false := by decide
    simpa [isPlain, hb, List.getLast?_cons, List.getLast?_append] using hg
  have hinf : Inert ("const inf = math.inf(".toList ++ format.name ++ ");".toList) := by
    cases format <;> exact inert_of_isPlain (by decide)
  have hnan : Inert ("const nan = math.nan(".toList ++ format.name ++ ");".toList) := by
    cases format <;> exact inert_of_isPlain (by decide)
  simp only [lines, List.forall_mem_append, List.forall_mem_cons, List.forall_mem_map]
  refine ⟨⟨⟨⟨⟨?_, hgenerator, ?_, inert_nil, ?_, hinf, hnan, inert_nil, ?_, inert_nil, by simp⟩,
    fun m _ => inert_modeLine m⟩, inert_nil, by simp⟩, fun x hx => inert_flagLine hx⟩,
    inert_nil, by simp⟩
  -- The lines that are left are fixed texts.
  all_goals exact inert_of_isPlain (by decide)

end Header

/-- The rows of test cases of one line. -/
theorem Table.inert_of_mem_rows {ts : List Testcase} (ht : ∀ t ∈ ts, t.OneLine) :
    ∀ row ∈ Table.rows ts, Inert row := by
  intro row hrow
  have hn := Table.newline_not_mem_rows ht row hrow
  have hr := Text.getLast?_ne_return (Table.stops_reverse_of_mem_rows hrow)
  obtain ⟨s, rfl⟩ := Table.exists_eq_of_mem_rows hrow
  have hb : Text.isBlank '.' = false := by decide
  refine inert_of_isPlain ?_
  simp [isPlain, hb, hn, hr]

namespace Listing

/-- No test case is kept before the first one. -/
theorem isKept_of_mem_take (h : kind ∈ kinds.take (firstKept kinds)) : kind.isKept = false := by
  obtain ⟨i, hi, rfl⟩ := List.mem_take_iff_getElem.mp h
  have hf := List.not_of_lt_findIdx (p := Line.isKept) (Nat.lt_of_lt_of_le hi (Nat.min_le_left _ _))
  simpa using hf

theorem mem_indent {c : Char} (h : c ∈ indent) : c = ' ' := by
  simpa [indent] using h

/-- What stands in the table for a line that has been read. -/
theorem inert_of_mem_part (hr : ∀ row ∈ rows, Inert row) (hread : Line.read f modes text = .ok kind)
    (hn : '\n' ∉ text) (n : Nat) : ∀ line ∈ part rows n text kind, Inert line := by
  have hpass : kind.isPassed = true → Inert (indent ++ Text.trim text) := fun hk =>
    ((Line.passes_of_read hread hk).inert_trim hn).append_spaces fun _ => mem_indent
  cases kind with
  | testcase t =>
    refine List.forall_mem_singleton.mpr (Inert.append_spaces ?_ fun _ => mem_indent)
    rw [List.getD_eq_getElem?_getD]
    cases hg : rows[n]? with
    | none => exact inert_nil
    | some row => exact hr row (List.mem_of_getElem? hg)
  | filtered m => exact fun line hl => absurd hl List.not_mem_nil
  | blank => exact List.forall_mem_singleton.mpr inert_nil
  | comment => exact List.forall_mem_singleton.mpr (hpass rfl)
  | unrecognized => exact List.forall_mem_singleton.mpr (hpass rfl)

/-- What stands before the table has been passed over. -/
theorem inert_of_mem_before (h : Line.ReadAs f modes texts kinds) (hn : ∀ text ∈ texts, '\n' ∉ text)
    (hr : ∀ text ∈ texts, text.getLast? ≠ some '\r') : ∀ line ∈ before texts kinds, Inert line := by
  intro line hline
  obtain ⟨⟨text, kind⟩, hx, rfl⟩ := List.mem_map.mp hline
  obtain ⟨hx, hfilt⟩ := List.mem_filter.mp hx
  have hz := List.mem_of_mem_take hx
  have htext := (List.of_mem_zip hz).1
  have hkind : kind ∈ kinds.take (firstKept kinds) := by
    have hm := List.mem_map_of_mem (f := Prod.snd) hx
    rwa [List.map_take, List.map_snd_zip (Nat.le_of_eq h.length_eq.symm)] at hm
  have hk := isKept_of_mem_take hkind
  have hpassed : kind.isPassed = true :=
    Line.isPassed_iff.mpr ⟨by simpa [Line.isKept] using hk, by simpa using hfilt⟩
  exact ⟨hn text htext, hr text htext,
    Line.passes_of_read ((List.forall₂_iff_zip.mp h).2 hz) hpassed⟩

/-- Every line of a listing after its head can be read again and is passed over then. -/
theorem inert_of_mem_lines (h : Line.ReadAs f modes texts kinds) (hn : ∀ text ∈ texts, '\n' ∉ text)
    (hr : ∀ text ∈ texts, text.getLast? ≠ some '\r') (hrows : ∀ row ∈ rows, Inert row) :
    ∀ line ∈ lines rows texts kinds, Inert line := by
  intro line hline
  simp only [lines, List.mem_append, List.mem_cons, List.not_mem_nil, or_false] at hline
  rcases hline with ((hline | hline) | rfl | hline) | rfl
  · exact inert_of_mem_before h hn hr line hline
  · split at hline
    · exact absurd hline List.not_mem_nil
    · exact List.mem_singleton.mp hline ▸ inert_nil
  · exact inert_of_isPlain (by decide)
  · obtain ⟨⟨text, kind, k⟩, hx, hline⟩ := List.mem_flatMap.mp hline
    have hx := List.mem_of_mem_drop hx
    have htext := hn text (List.of_mem_zip hx).1
    exact inert_of_mem_part hrows (mem_numbered h hx).1 htext _ line hline
  · exact inert_of_isPlain (by decide)

/-- Lines that are passed over stand before a table without rows. -/
theorem lines_of_isPassed (hl : texts.length = kinds.length)
    (hk : ∀ kind ∈ kinds, kind.isPassed = true) (hne : texts ≠ []) :
    lines rows texts kinds = texts ++ [[], "const testcases = .\x7b".toList, "\x7d;".toList] := by
  have hfilt : ∀ x ∈ texts.zip kinds, (!x.2.isFiltered) = true := fun x hx => by
    simp [(Line.isPassed_iff.mp (hk x.2 (List.of_mem_zip hx).2)).2]
  have hfirst := firstKept_eq_length (Line.filterMap_testcase?_of_isPassed hk)
  have hbefore : before texts kinds = texts := by
    rw [before, hfirst, List.take_of_length_le (by simp), List.filter_eq_self.mpr hfilt,
      List.map_fst_zip (Nat.le_of_eq hl)]
  have hinside : inside rows texts kinds = [] := by
    rw [inside, hfirst, numbered, List.drop_of_length_le (by simp), List.flatMap_nil]
  rw [lines, hbefore, hinside, if_neg hne]
  simp

end Listing
end FloatCases
