import FloatCases.Proofs.Conversion.Reading
import FloatCases.Proofs.Line.Recognition

/-!
The lines of a listing by the kinds of the lines of the file. Main statements: what is written is
what stands before the table, and the table with a part for every line from the first test case on;
a part is one line or nothing, and the test cases have the rows in order.
-/
namespace FloatCases

variable {f : FloatFormat} {modes : ModeSet} {texts rows : List Text} {kinds : List Line}
  {kind : Line} {t : Testcase} {k n : Nat}

/-- Whether a line is a test case that is kept. -/
def Line.isKept (kind : Line) : Bool :=
  kind.testcase?.isSome

namespace Listing

/-- The number of test cases that are kept before the line of a given number. -/
def rank (kinds : List Line) (k : Nat) : Nat :=
  (kinds.take k).countP Line.isKept

/-- The number of the first line whose test case is kept. -/
def firstKept (kinds : List Line) : Nat :=
  kinds.findIdx Line.isKept

/-- The lines of a file with their kinds and numbers. -/
def numbered (texts : List Text) (kinds : List Line) : List (Text × Line × Nat) :=
  texts.zip kinds.zipIdx

/-- The lines before the first test case that is kept, without the test cases that are not kept. -/
def before (texts : List Text) (kinds : List Line) : List Text :=
  (((texts.zip kinds).take (firstKept kinds)).filter fun x => !x.2.isFiltered).map (·.1)

/-- What stands in the table for a line of a given kind: the row of a given number, if any. -/
def part (rows : List Text) (n : Nat) (text : Text) : Line → List Text
  | .testcase _ => [indent ++ rows.getD n []]
  | .filtered _ => []
  | .blank => [[]]
  | .comment | .unrecognized => [indent ++ Text.trim text]

/-- The lines of the table, the test cases with the rows in order. -/
def inside (rows texts : List Text) (kinds : List Line) : List Text :=
  ((numbered texts kinds).drop (firstKept kinds)).flatMap fun x =>
    part rows (rank kinds x.2.2) x.1 x.2.1

/-- The lines of a listing after its head. -/
def lines (rows texts : List Text) (kinds : List Line) : List Text :=
  before texts kinds ++ (if before texts kinds = [] then [] else [[]])
    ++ "const testcases = .\x7b".toList :: inside rows texts kinds ++ ["\x7d;".toList]

/-- The slot of a line of a given kind. -/
def slot (n : Nat) : Line → Slot
  | .testcase _ => .row n
  | .filtered _ => .drop
  | _ => .pass

theorem rank_zero (kinds : List Line) : rank kinds 0 = 0 :=
  rfl

theorem rank_cons (kind : Line) (kinds : List Line) (k : Nat) :
    rank (kind :: kinds) (k + 1) = rank kinds k + if kind.isKept then 1 else 0 := by
  simp [rank, List.countP_cons]

/-- The slots are those of the kinds, and the rows are numbered by their ranks. -/
theorem slotsFrom_eq (n : Nat) (kinds : List Line) :
    Reading.slotsFrom n kinds = kinds.zipIdx.map fun x => slot (n + rank kinds x.2) x.1 := by
  induction kinds generalizing n with
  | nil => rfl
  | cons kind kinds ih =>
    rw [List.zipIdx_cons', List.map_cons, List.map_map]
    cases kind <;>
      simp [Reading.slotsFrom, ih, slot, rank_zero, rank_cons, Line.isKept, Line.testcase?,
        Function.comp_def, Nat.add_assoc, Nat.add_comm 1]

theorem findIdx_slotsFrom (n : Nat) (kinds : List Line) :
    (Reading.slotsFrom n kinds).findIdx isRow = firstKept kinds := by
  unfold firstKept
  induction kinds generalizing n with
  | nil => rfl
  | cons kind kinds ih =>
    cases kind <;>
      simp [Reading.slotsFrom, List.findIdx_cons, isRow, Line.isKept, Line.testcase?, ih]

theorem zip_slotsFrom (texts : List Text) (kinds : List Line) :
    texts.zip (Reading.slotsFrom 0 kinds) =
      (numbered texts kinds).map fun x => (x.1, slot (rank kinds x.2.2) x.2.1) := by
  simp [slotsFrom_eq, numbered, List.zip_map_right, Prod.map]

theorem map_numbered (texts : List Text) (kinds : List Line) :
    (numbered texts kinds).map (fun x => (x.1, x.2.1)) = texts.zip kinds := by
  have h : texts.zip (kinds.zipIdx.map Prod.fst) = _ := List.zip_map_right
  rw [List.zipIdx_map_fst] at h
  exact h.symm

/-- Before the table stand the lines whose slot is not dropped. -/
theorem flatMap_preambleLines (xs : List (Text × Line × Nat)) :
    (xs.map fun x => (x.1, slot (rank kinds x.2.2) x.2.1)).flatMap preambleLines =
      ((xs.map fun x => (x.1, x.2.1)).filter fun x => !x.2.isFiltered).map (·.1) := by
  induction xs with
  | nil => rfl
  | cons x xs ih =>
    obtain ⟨text, kind, k⟩ := x
    cases kind <;> simp_all [preambleLines, slot, Line.isFiltered]

/-- The test case of a line is the one whose number is the rank of the line. -/
theorem getElem?_rank (h : kinds[k]? = some (.testcase t)) :
    (kinds.filterMap Line.testcase?)[rank kinds k]? = some t := by
  induction kinds generalizing k with
  | nil => simp at h
  | cons kind kinds ih =>
    cases k with
    | zero =>
      obtain rfl : kind = .testcase t := by simpa using h
      rfl
    | succ k =>
      have hk := ih (k := k) (by simpa using h)
      cases kind <;>
        simpa [rank_cons, Line.isKept, Line.testcase?, List.filterMap_cons] using hk

/-- There is no test case that is kept before the first one. -/
theorem firstKept_le (h : kinds[k]? = some (.testcase t)) : firstKept kinds ≤ k := by
  obtain ⟨hk, ht⟩ := List.getElem?_eq_some_iff.mp h
  refine Nat.le_of_not_lt fun hlt => ?_
  have hf := List.not_of_lt_findIdx hlt
  rw [ht] at hf
  exact absurd hf (by simp [Line.isKept, Line.testcase?])

theorem firstKept_eq_length (h : kinds.filterMap Line.testcase? = []) :
    firstKept kinds = kinds.length := by
  refine List.findIdx_eq_length_of_false fun kind hk => ?_
  have hn := List.filterMap_eq_nil_iff.mp h kind hk
  simp [Line.isKept, hn]

/-- The ranks of the test cases that are kept are all numbers from zero on, in order. -/
theorem ranks_eq_range' (n : Nat) (kinds : List Line) :
    ((kinds.zipIdx.filter fun x => x.1.isKept).map fun x => n + rank kinds x.2) =
      List.range' n (kinds.filterMap Line.testcase?).length := by
  induction kinds generalizing n with
  | nil => rfl
  | cons kind kinds ih =>
    rw [List.zipIdx_cons']
    cases h : kind.testcase? with
    | none =>
      have hk : kind.isKept = false := by simp [Line.isKept, h]
      simpa [List.filter_map, Function.comp_def, rank_cons, hk, h,
        List.filterMap_cons] using ih n
    | some t =>
      have hk : kind.isKept = true := by simp [Line.isKept, h]
      simpa [List.filter_map, Function.comp_def, rank_zero, rank_cons, hk, h,
        List.filterMap_cons, List.range'_succ, Nat.add_assoc, Nat.add_comm 1] using ih (n + 1)

theorem length_part (rows : List Text) (n : Nat) (text : Text) (kind : Line) :
    (part rows n text kind).length = if kind.isFiltered then 0 else 1 := by
  cases kind <;> rfl

theorem length_flatMap_part (rows : List Text) (xs : List (Text × Line × Nat)) :
    (xs.flatMap fun x => part rows (rank kinds x.2.2) x.1 x.2.1).length =
      (xs.map (·.2.1)).countP fun kind => !kind.isFiltered := by
  induction xs with
  | nil => rfl
  | cons x xs ih =>
    rw [List.flatMap_cons, List.length_append, length_part, ih, List.map_cons, List.countP_cons]
    cases x.2.1.isFiltered <;> simp [Nat.add_comm]

/-- Every line of the file is one line of the listing, if it is not a test case left out. -/
theorem length_before_add_length_inside (rows : List Text) (h : texts.length = kinds.length) :
    (before texts kinds).length + (inside rows texts kinds).length =
      kinds.countP fun kind => !kind.isFiltered := by
  have hm : (texts.zip kinds).map Prod.snd = kinds := List.map_snd_zip (Nat.le_of_eq h.symm)
  have hn : (numbered texts kinds).map (·.2.1) = kinds := by
    rw [← map_numbered, List.map_map] at hm
    exact hm
  have hb : (before texts kinds).length =
      (kinds.take (firstKept kinds)).countP fun kind => !kind.isFiltered := by
    have ht : kinds.take (firstKept kinds) =
        ((texts.zip kinds).take (firstKept kinds)).map Prod.snd := by rw [List.map_take, hm]
    rw [before, List.length_map, ← List.countP_eq_length_filter, ht, List.countP_map]
    rfl
  have hi : (inside rows texts kinds).length =
      (kinds.drop (firstKept kinds)).countP fun kind => !kind.isFiltered := by
    rw [inside, length_flatMap_part, List.map_drop, hn]
  rw [hb, hi, ← List.countP_append, List.take_append_drop]

/-- The lines of the listing are as many as those of the file, without the test cases left out. -/
theorem length_lines_add_filtered (rows : List Text) (h : texts.length = kinds.length) :
    (lines rows texts kinds).length + kinds.countP Line.isFiltered =
      texts.length + 2 + if before texts kinds = [] then 0 else 1 := by
  have hl := length_before_add_length_inside rows h
  have hc := List.length_eq_countP_add_countP (p := Line.isFiltered) (l := kinds)
  simp only [Bool.not_eq_true, Bool.decide_eq_false] at hc
  simp only [lines, List.length_append, List.length_cons, List.length_nil]
  split
  · simp only [List.length_nil]
    omega
  · simp only [List.length_cons, List.length_nil]
    omega

theorem newline_not_mem_part {text : Text} (ht : '\n' ∉ text) (hr : ∀ row ∈ rows, '\n' ∉ row)
    (n : Nat) (kind : Line) : ∀ line ∈ part rows n text kind, '\n' ∉ line := by
  have hi : '\n' ∉ indent := by decide
  have hrow : '\n' ∉ rows.getD n [] := by
    rw [List.getD_eq_getElem?_getD]
    cases hg : rows[n]? with
    | none => exact List.not_mem_nil
    | some row => exact hr row (List.mem_of_getElem? hg)
  have htrim : '\n' ∉ Text.trim text := fun h => ht (Text.mem_of_mem_trim h)
  cases kind <;> simp_all [part]

/-- No line of the listing has a line feed, if neither the lines of the file nor the rows do. -/
theorem newline_not_mem_lines (ht : ∀ text ∈ texts, '\n' ∉ text) (hr : ∀ row ∈ rows, '\n' ∉ row) :
    ∀ line ∈ lines rows texts kinds, '\n' ∉ line := by
  intro line hline
  simp only [lines, List.mem_append, List.mem_cons, List.not_mem_nil, or_false] at hline
  rcases hline with ((hline | hline) | rfl | hline) | rfl
  · obtain ⟨x, hx, rfl⟩ := List.mem_map.mp hline
    have hz := List.mem_of_mem_take (List.mem_filter.mp hx).1
    exact ht x.1 (List.of_mem_zip hz).1
  · split at hline
    · exact absurd hline List.not_mem_nil
    · rw [List.mem_singleton.mp hline]
      exact List.not_mem_nil
  · decide
  · obtain ⟨x, hx, hline⟩ := List.mem_flatMap.mp hline
    have hz := List.of_mem_zip (List.mem_of_mem_drop hx)
    exact newline_not_mem_part (ht x.1 hz.1) hr _ x.2.1 line hline
  · decide

theorem mem_numbered {text : Text} (h : Line.ReadAs f modes texts kinds)
    (hx : (text, kind, k) ∈ numbered texts kinds) :
    Line.read f modes text = .ok kind ∧ kinds[k]? = some kind := by
  constructor
  · refine (List.forall₂_iff_zip.mp h).2 ?_
    rw [← map_numbered]
    exact List.mem_map_of_mem hx
  · exact List.mem_zipIdx_iff_getElem?.mp (List.of_mem_zip hx).2

/-- For the slot of a line that has been read stands what is said for its kind. -/
theorem bodyLines_eq {text : Text} (h : Line.read f modes text = .ok kind)
    (hn : kind.isKept = true → n < rows.length) :
    bodyLines rows (text, slot n kind) = part rows n text kind := by
  have hb : kind = .blank ↔ Text.trim text = [] := by
    have hr : Line.read f modes text = .ok .blank ↔ Text.trim text = [] := Line.read_eq_blank_iff
    rw [← hr, h, Except.ok.injEq]
  cases kind with
  | testcase t => simp [bodyLines, slot, part, hn rfl]
  | filtered mode => rfl
  | blank => simp [bodyLines, slot, part, hb.mp rfl]
  | comment =>
    have ht : Text.trim text ≠ [] := fun ht => Line.noConfusion (hb.mpr ht)
    simp [bodyLines, slot, part, ht]
  | unrecognized =>
    have ht : Text.trim text ≠ [] := fun ht => Line.noConfusion (hb.mpr ht)
    simp [bodyLines, slot, part, ht]

/-- What is written for lines that have been read. -/
theorem write_eq (h : Line.ReadAs f modes texts kinds) (header : Header)
    (hr : rows.length = (kinds.filterMap Line.testcase?).length) :
    write header texts (Reading.slotsFrom 0 kinds) rows =
      header.render ++ Text.unlines (lines rows texts kinds) := by
  have hp : preamble (((numbered texts kinds).map fun x =>
      (x.1, slot (rank kinds x.2.2) x.2.1)).take (firstKept kinds)) =
        before texts kinds ++ if before texts kinds = [] then [] else [[]] := by
    rw [preamble, ← List.map_take, flatMap_preambleLines, List.map_take, map_numbered, ← before]
    split <;> simp_all
  have hi : (((numbered texts kinds).map fun x =>
      (x.1, slot (rank kinds x.2.2) x.2.1)).drop (firstKept kinds)).flatMap (bodyLines rows) =
        inside rows texts kinds := by
    rw [← List.map_drop, List.flatMap_map, inside]
    refine List.flatMap_congr fun ⟨text, kind, k⟩ hx => ?_
    obtain ⟨hread, hk⟩ := mem_numbered h (List.mem_of_mem_drop hx)
    refine bodyLines_eq hread fun hkept => ?_
    obtain ⟨t, rfl⟩ : ∃ t, kind = .testcase t := by
      cases kind <;> simp_all [Line.isKept, Line.testcase?]
    rw [hr]
    exact (List.getElem?_eq_some_iff.mp (getElem?_rank hk)).1
  simp only [write, findIdx_slotsFrom, zip_slotsFrom, hp, table, hi, lines]
  simp

end Listing
end FloatCases
