import FloatCases.Proofs.Table.Rows
import Mathlib.Algebra.GroupWithZero.Nat
import Mathlib.Data.List.Forall2
import Mathlib.Data.List.MinMax
import Mathlib.Order.Nat

/-!
The columns of tables. Main statement: a cell starts at the same place in every row, the place is
that after the longest cells of the columns before and a space after each, and only spaces stand
between a cell and the next; the end of a row is cut off up to a closing brace or in its comment.
-/
namespace FloatCases.Table

variable {ws : List Nat} {row : List Text} {cell : Text} {table : List (List Text)}
  {ts : List Testcase} {t : Testcase} {j : Nat}

/-- The number of characters of a row before a column. -/
def offset (table : List (List Text)) : Nat → Nat
  | 0 => 0
  | j + 1 => offset table j + columnWidth table j + 1

/-- A cell stands in a row at a place, with only spaces after it up to another or to the end. -/
def HoldsAt (line cell : Text) (start stop : Nat) : Prop :=
  ∃ pre k post, line = pre ++ (cell ++ (List.replicate k ' ' ++ post)) ∧ pre.length = start ∧
    (start + cell.length + k = stop ∨ post = [] ∧ start + cell.length + k ≤ stop)

/-- Cells padded to given lengths, with a space after each. -/
def leading (ws : List Nat) (row : List Text) : Text :=
  (List.zipWith (fun w (cell : Text) => cell.rightpad w ' ') ws row).flatMap (· ++ [' '])

/-- What stands after the closing brace of a row. -/
def remark : Option Text → Text
  | none => []
  | some comment => ' ' :: Text.trimEnd (commentCell (some comment))

/-- The cells of a row before the closing brace. -/
def front (ts : List Testcase) (t : Testcase) : Text :=
  leading ((widths (ts.map cells)).take 6) ((cells t).take 6)

/-- Lengths that are enough for the cells of a row. -/
abbrev Fits : List Nat → List Text → Prop :=
  List.Forall₂ fun w cell => cell.length ≤ w

theorem leading_cons (w : Nat) (ws : List Nat) (cell : Text) (row : List Text) :
    leading (w :: ws) (cell :: row) =
      cell ++ (List.replicate (w - cell.length) ' ' ++ ' ' :: leading ws row) := by
  simp [leading, List.rightpad]

theorem length_leading (h : Fits ws row) : (leading ws row).length = (ws.map (· + 1)).sum := by
  induction h with
  | nil => rfl
  | cons hw _ ih =>
    rw [leading_cons, List.map_cons, List.sum_cons, ← ih]
    simp
    omega

/-- A cell stands behind the lengths before it, and spaces fill up its own. -/
theorem exists_leading_eq (h : Fits ws row) (hj : row[j]? = some cell) :
    ∃ pre k post, leading ws row = pre ++ (cell ++ (List.replicate k ' ' ++ post)) ∧
      pre.length = ((ws.take j).map (· + 1)).sum ∧
      pre.length + cell.length + k = ((ws.take (j + 1)).map (· + 1)).sum := by
  induction h generalizing j with
  | nil => simp at hj
  | @cons w c ws row hw _ ih =>
    rw [leading_cons]
    cases j with
    | zero =>
      obtain rfl : c = cell := by simpa using hj
      refine ⟨[], w - c.length + 1, leading ws row, ?_, rfl, ?_⟩
      · simp [List.replicate_add]
      · simp
        omega
    | succ j =>
      obtain ⟨pre, k, post, he, hp, hk⟩ := ih hj
      have hl : (c ++ (List.replicate (w - c.length) ' ' ++ ' ' :: pre)).length =
          w + 1 + pre.length := by
        simp
        omega
      refine ⟨c ++ (List.replicate (w - c.length) ' ' ++ ' ' :: pre), k, post, by simp [he], ?_, ?_⟩
      · rw [hl, hp, List.take_succ_cons, List.map_cons, List.sum_cons]
      · rw [hl, List.take_succ_cons, List.map_cons, List.sum_cons, ← hk]
        omega

theorem length_le_columnWidth (h : row ∈ table) (j : Nat) :
    (row.getD j []).length ≤ columnWidth table j :=
  List.le_max_of_le (List.mem_map_of_mem h) (Nat.le_refl _)

/-- A column is as wide as one of its cells. -/
theorem exists_length_eq_columnWidth (h : table ≠ []) (j : Nat) :
    ∃ row ∈ table, (row.getD j []).length = columnWidth table j := by
  have hne : table.map (fun row => (row.getD j []).length) ≠ [] := by simpa using h
  exact List.mem_map.mp (List.maximum_mem (List.foldr_max_of_ne_nil hne).symm)

theorem fits_widths (h : row ∈ table) (hl : row.length = columns) : Fits (widths table) row := by
  refine List.forall₂_iff_get.mpr ⟨by simp [widths, hl], fun j h₁ h₂ => ?_⟩
  have hw := length_le_columnWidth h j
  simpa [widths, h₂] using hw

theorem sum_take_widths (table : List (List Text)) (hj : j ≤ columns) :
    (((widths table).take j).map (· + 1)).sum = offset table j := by
  rw [widths, ← List.map_take, List.take_range, Nat.min_eq_left hj]
  clear hj
  induction j with
  | zero => rfl
  | succ j ih => simp [List.range_succ, offset, ← ih, Nat.add_assoc]

theorem columnWidth_brace (h : t ∈ ts) : columnWidth (ts.map cells) 6 = 2 := by
  have hne : ts.map cells ≠ [] := List.ne_nil_of_mem (List.mem_map_of_mem h)
  obtain ⟨row, hrow, hw⟩ := exists_length_eq_columnWidth hne 6
  obtain ⟨t', -, rfl⟩ := List.mem_map.mp hrow
  exact hw.symm

/-- The padding of a comment cell is cut off, and so is the space before an empty one. -/
theorem trimEnd_commentCell (comment : Option Text) (w : Nat) :
    Text.trimEnd (' ' :: (commentCell comment).rightpad w ' ') = remark comment := by
  have hs : ∀ n, ∀ c ∈ List.replicate n ' ', Text.isBlank c = true := fun n c hc => by
    rw [List.eq_of_mem_replicate hc]
    decide
  cases comment with
  | none => exact Text.trimEnd_of_isBlank (hs (w + 1))
  | some s =>
    have hslash : Text.isBlank '/' = false := by decide
    rw [List.rightpad, ← List.cons_append, Text.trimEnd_append_of_isBlank (hs _), remark]
    exact (Text.trimEnd_append_cons hslash [' '] _).trans (by rw [← Text.trimEnd_cons hslash]; rfl)

/-- A row is its cells up to the closing brace and then its comment. -/
theorem rows_eq (ts : List Testcase) :
    rows ts = ts.map fun t => front ts t ++ ("\x7d,".toList ++ remark t.comment) := by
  rw [rows, List.map_map]
  refine List.map_congr_left fun t ht => ?_
  have hp : List.zipWith (fun w (cell : Text) => cell.rightpad w ' ') (widths (ts.map cells))
      (cells t) = List.zipWith (fun w (cell : Text) => cell.rightpad w ' ')
        ((widths (ts.map cells)).take 6) ((cells t).take 6)
        ++ ("\x7d,".toList).rightpad (columnWidth (ts.map cells) 6) ' '
          :: [(commentCell t.comment).rightpad (columnWidth (ts.map cells) 7) ' '] := rfl
  have hbrace : (front ts t ++ List.intercalate [' '] [("\x7d,".toList).rightpad 2 ' ',
      (commentCell t.comment).rightpad (columnWidth (ts.map cells) 7) ' ']) =
      (front ts t ++ ['\x7d']) ++
        ',' :: ' ' :: (commentCell t.comment).rightpad (columnWidth (ts.map cells) 7) ' ' := by
    rw [List.intercalate_cons_cons, List.intercalate_singleton]
    simp
  have hc : Text.isBlank ',' = false := by decide
  rw [Function.comp_apply, align, hp, Text.intercalate_append_cons, columnWidth_brace ht]
  change Text.trimEnd (front ts t ++ _) = _
  rw [hbrace, Text.trimEnd_append_cons hc, trimEnd_commentCell]
  simp

theorem fits_front (h : t ∈ ts) : Fits ((widths (ts.map cells)).take 6) ((cells t).take 6) :=
  List.forall₂_take 6 (fits_widths (List.mem_map_of_mem h) (length_cells t))

theorem length_front (h : t ∈ ts) : (front ts t).length = offset (ts.map cells) 6 := by
  rw [front, length_leading (fits_front h), sum_take_widths _ (by decide)]

theorem offset_comment (h : t ∈ ts) :
    offset (ts.map cells) 7 = offset (ts.map cells) 6 + 3 := by
  rw [offset, columnWidth_brace h]

/-- A cell before the closing brace stands at the place of its column. -/
theorem holdsAt_front (h : t ∈ ts) (hj : j < 6) (hc : (cells t)[j]? = some cell) (s : Text) :
    HoldsAt (front ts t ++ s) cell (offset (ts.map cells) j) (offset (ts.map cells) (j + 1)) := by
  have hc' : ((cells t).take 6)[j]? = some cell := by rw [List.getElem?_take_of_lt hj, hc]
  obtain ⟨pre, k, post, he, hp, hk⟩ := exists_leading_eq (fits_front h) hc'
  have h8 : j + 1 ≤ columns := Nat.le_trans hj (by decide)
  rw [List.take_take, Nat.min_eq_left (Nat.le_of_lt hj), sum_take_widths _ (by omega)] at hp
  rw [List.take_take, Nat.min_eq_left hj, sum_take_widths _ h8, hp] at hk
  exact ⟨pre, k, post ++ s, by simp [front, he], hp, Or.inl hk⟩

/-- The closing brace stands at the place of its column, and a space after it if there is more. -/
theorem holdsAt_brace (h : t ∈ ts) :
    HoldsAt (front ts t ++ ("\x7d,".toList ++ remark t.comment)) "\x7d,".toList
      (offset (ts.map cells) 6) (offset (ts.map cells) 7) := by
  have hlt : offset (ts.map cells) 6 + 2 + 1 = offset (ts.map cells) 7 := (offset_comment h).symm
  cases hr : t.comment with
  | none => exact ⟨front ts t, 0, [], rfl, length_front h, Or.inr ⟨rfl, by simp; omega⟩⟩
  | some s => exact ⟨front ts t, 1, _, rfl, length_front h, Or.inl hlt⟩

theorem drop_comment (h : t ∈ ts) :
    (front ts t ++ ("\x7d,".toList ++ remark t.comment)).drop (offset (ts.map cells) 7) =
      Text.trimEnd (commentCell t.comment) := by
  rw [offset_comment h, ← length_front h, List.drop_length_add_append]
  cases t.comment <;> rfl

/-- A line of a table: the cells of its test case stand at the places of their columns. -/
structure Aligned (table : List (List Text)) (line : Text) (t : Testcase) : Prop where
  cell : ∀ j < 7, ∀ cell, (cells t)[j]? = some cell →
    HoldsAt line cell (offset table j) (offset table (j + 1))
  /-- The comment stands behind the other columns and loses white space at its end, if any. -/
  comment : ∃ w, (∀ c ∈ w, Text.isBlank c = true) ∧
    commentCell t.comment = line.drop (offset table 7) ++ w
  last : ∀ c ∈ line.getLast?, Text.isBlank c = false

theorem aligned_of_mem (h : t ∈ ts) :
    Aligned (ts.map cells) (front ts t ++ ("\x7d,".toList ++ remark t.comment)) t where
  cell := by
    intro j hj cell hc
    by_cases h6 : j < 6
    · exact holdsAt_front h h6 hc _
    · obtain rfl : j = 6 := by omega
      obtain rfl : "\x7d,".toList = cell := Option.some.inj hc
      exact holdsAt_brace h
  comment := by
    rw [drop_comment h]
    obtain ⟨w, hw, he⟩ := Text.exists_trimEnd_eq (commentCell t.comment)
    exact ⟨w, hw, he⟩
  last := by
    have hrow : front ts t ++ ("\x7d,".toList ++ remark t.comment) ∈ rows ts := by
      rw [rows_eq]
      exact List.mem_map_of_mem h
    intro c hc
    exact stops_reverse_of_mem_rows hrow c (by rwa [List.head?_reverse])

/--
There is one row for each test case, in order, and every cell of it stands at the place of its
column. The closing braces of all rows stand at one place, and each column before the comments is as
wide as the longest of its cells, so no column could be narrower.
-/
theorem rows_aligned (ts : List Testcase) :
    List.Forall₂ (Aligned (ts.map cells)) (rows ts) ts ∧
    (∀ line ∈ rows ts, "\x7d,".toList <+: line.drop (offset (ts.map cells) 6)) ∧
    ∀ j < 7, (∀ t ∈ ts, ((cells t).getD j []).length ≤ columnWidth (ts.map cells) j) ∧
      (ts ≠ [] → ∃ t ∈ ts, ((cells t).getD j []).length = columnWidth (ts.map cells) j) := by
  refine ⟨?_, fun line hline => ?_, fun j _ => ⟨fun t ht => ?_, fun hne => ?_⟩⟩
  · rw [rows_eq, List.forall₂_map_left_iff]
    exact List.forall₂_same.mpr fun t ht => aligned_of_mem ht
  · rw [rows_eq] at hline
    obtain ⟨t, ht, rfl⟩ := List.mem_map.mp hline
    rw [← length_front ht, List.drop_left]
    exact List.prefix_append _ _
  · exact length_le_columnWidth (List.mem_map_of_mem ht) j
  · have hne' : ts.map cells ≠ [] := by simpa using hne
    obtain ⟨row, hrow, hw⟩ := exists_length_eq_columnWidth hne' j
    obtain ⟨t, ht, rfl⟩ := List.mem_map.mp hrow
    exact ⟨t, ht, hw⟩

/-- A comment of spaces alone loses the space before it, and a wide character counts as one. -/
theorem rows_aligned_blank :
    let ts : List Testcase :=
      [⟨.nearest, "-日".toList, [], "nan".toList, .empty, some "  ".toList⟩,
        ⟨.up, "0x1p+9".toList, "2".toList, "é ".toList, .only .inexact, none⟩]
    rows ts = [".\x7b RN, -日,       ,   nan, NONE    \x7d, //".toList,
        ".\x7b RU,  0x1p+9,  2,  é ,  INEXACT \x7d,".toList] ∧
      offset (ts.map cells) 6 = 34 ∧
      (∀ line ∈ rows ts, "\x7d,".toList <+: line.drop (offset (ts.map cells) 6)) ∧
      ∃ t ∈ ts, ((cells t).getD 2 []).length = columnWidth (ts.map cells) 2 := by
  intro ts
  obtain ⟨-, hbrace, hwidth⟩ := rows_aligned ts
  exact ⟨by decide +kernel, by decide +kernel, hbrace, (hwidth 2 (by decide)).2 (by simp [ts])⟩

end FloatCases.Table
