import FloatCases.Proofs.Listing.Dropping
import Mathlib.Data.List.Basic

/-!
Listings by the positions of lines and slots, which need not fit together. Main statement: only the
positions that have both a line and a slot count, each of them shows one line or none, in order, and
a position that shows none can be taken out, unless it opens the table.
-/
namespace FloatCases.Listing

variable {lines rows : List Text} {slots : List Slot} {entries : List (Text × Slot)}
  {x y : Text × Slot} {line row : Text} {i j m n : Nat}

/--
The line of a listing for a line of the file with its slot, if there is one. Once the table is open,
lines are laid out anew.
-/
def shown? (rows : List Text) (opened : Bool) : Text × Slot → Option Text
  | (_, .row n) => rows[n]?.map (indent ++ ·)
  | (_, .drop) => none
  | (line, .pass) =>
    if opened then some (if Text.trim line = [] then [] else indent ++ Text.trim line)
    else some line

/-- The line of a listing for a position. The first slot of a row opens the table. -/
def shownAt? (lines rows : List Text) (slots : List Slot) (i : Nat) : Option Text :=
  (lines.zip slots)[i]?.bind (shown? rows ((slots.take i).any isRow))

theorem preambleLines_eq (hx : isRow x.2 = false) (rows : List Text) :
    preambleLines x = (shown? rows false x).toList := by
  obtain ⟨line, slot⟩ := x
  cases slot with
  | row n => exact Bool.noConfusion hx
  | drop => rfl
  | pass => rfl

theorem bodyLines_eq_toList (rows : List Text) (x : Text × Slot) :
    bodyLines rows x = (shown? rows true x).toList := by
  obtain ⟨line, slot⟩ := x
  cases slot with
  | row n => rfl
  | drop => rfl
  | pass =>
    simp only [bodyLines, shown?]
    split <;> rfl

/-- For a row it does not matter whether the table is open. -/
theorem shown?_of_isRow (hx : isRow x.2 = true) (opened opened' : Bool) :
    shown? rows opened x = shown? rows opened' x := by
  obtain ⟨line, slot⟩ := x
  cases slot with
  | row n => rfl
  | drop => exact Bool.noConfusion hx
  | pass => exact Bool.noConfusion hx

theorem isSome_shownAt?_iff :
    (shownAt? lines rows slots i).isSome ↔ i < lines.length ∧
      (slots[i]? = some .pass ∨ ∃ n < rows.length, slots[i]? = some (.row n)) := by
  rw [shownAt?]
  by_cases hi : i < lines.length ∧ i < slots.length
  · have hz : (lines.zip slots)[i]? = some (lines[i], slots[i]) :=
      List.getElem?_zip_eq_some.mpr ⟨List.getElem?_eq_getElem hi.1, List.getElem?_eq_getElem hi.2⟩
    rw [hz, List.getElem?_eq_getElem hi.2, Option.bind_some]
    cases slots[i] with
    | row n => simp [shown?, hi.1]
    | drop => simp [shown?]
    | pass =>
      simp only [shown?]
      split <;> simp [hi.1]
  · have hz : (lines.zip slots)[i]? = none := by
      rw [List.getElem?_eq_none_iff, List.length_zip]
      omega
    rw [hz]
    by_cases hl : i < lines.length
    · have hs : slots[i]? = none := List.getElem?_eq_none_iff.mpr (by omega)
      simp [hs]
    · simp [hl]

/-! The positions before and after the one that opens the table. -/

theorem any_take_eq_false (h : i ≤ slots.findIdx isRow) : (slots.take i).any isRow = false := by
  rw [List.any_eq_false]
  intro slot hslot
  obtain ⟨j, hj, rfl⟩ := List.mem_take_iff_getElem.mp hslot
  have hf : j < slots.findIdx isRow := by omega
  simp [List.not_of_lt_findIdx hf]

theorem any_take_eq_true (h : slots.findIdx isRow < i) (hi : i ≤ slots.length) :
    (slots.take i).any isRow = true := by
  have hf : slots.findIdx isRow < slots.length := by omega
  refine List.any_eq_true.mpr ⟨slots[slots.findIdx isRow], ?_, List.findIdx_getElem⟩
  exact List.mem_take_iff_getElem.mpr ⟨slots.findIdx isRow, by omega, rfl⟩

theorem isRow_of_mem_take (h : x ∈ (lines.zip slots).take (slots.findIdx isRow)) :
    isRow x.2 = false := by
  obtain ⟨j, hj, rfl⟩ := List.mem_take_iff_getElem.mp h
  have hf : j < slots.findIdx isRow := by omega
  rw [List.getElem_zip]
  exact List.not_of_lt_findIdx hf

/-- What a list shows from a position on is shown there if both agree at each element. -/
theorem filterMap_range' {α β : Type} {f : α → Option β} {g : Nat → Option β} {xs : List α}
    (m : Nat) (h : ∀ j x, xs[j]? = some x → g (m + j) = f x) :
    (List.range' m xs.length).filterMap g = xs.filterMap f := by
  induction xs generalizing m with
  | nil => rfl
  | cons x xs ih =>
    have hx : g m = f x := h 0 x rfl
    have hxs := ih (m + 1) fun j y hy => by
      rw [Nat.add_assoc, Nat.add_comm 1]
      exact h (j + 1) y hy
    rw [List.length_cons, List.range'_succ, List.filterMap_cons, List.filterMap_cons, hx, hxs]

/-- Before the table is opened every position shows its line or nothing. -/
theorem flatMap_preambleLines_take (lines rows : List Text) (slots : List Slot) :
    ((lines.zip slots).take (slots.findIdx isRow)).flatMap preambleLines =
      (List.range (min (slots.findIdx isRow) (min lines.length slots.length))).filterMap
        (shownAt? lines rows slots) := by
  have hshown : ∀ j x, ((lines.zip slots).take (slots.findIdx isRow))[j]? = some x →
      shownAt? lines rows slots (0 + j) = shown? rows false x := by
    intro j x hx
    rw [List.getElem?_take, Option.ite_none_right_eq_some] at hx
    obtain ⟨hj, hx⟩ := hx
    rw [Nat.zero_add, shownAt?, hx, any_take_eq_false (Nat.le_of_lt hj)]
    rfl
  have hlen : ((lines.zip slots).take (slots.findIdx isRow)).length =
      min (slots.findIdx isRow) (min lines.length slots.length) := by
    rw [List.length_take, List.length_zip]
  rw [List.flatMap_congr fun x hx => preambleLines_eq (isRow_of_mem_take hx) rows,
    ← List.filterMap_eq_flatMap_toList, ← filterMap_range' 0 hshown, hlen, List.range_eq_range']

/-- From the slot that opens the table on every position shows its part of the table. -/
theorem flatMap_bodyLines_drop (lines rows : List Text) (slots : List Slot) :
    ((lines.zip slots).drop (slots.findIdx isRow)).flatMap (bodyLines rows) =
      (List.range' (slots.findIdx isRow)
        (min lines.length slots.length - slots.findIdx isRow)).filterMap
          (shownAt? lines rows slots) := by
  have hshown : ∀ j x, ((lines.zip slots).drop (slots.findIdx isRow))[j]? = some x →
      shownAt? lines rows slots (slots.findIdx isRow + j) = shown? rows true x := by
    intro j x hx
    rw [List.getElem?_drop] at hx
    rw [shownAt?, hx, Option.bind_some]
    obtain ⟨-, hs⟩ := List.getElem?_zip_eq_some.mp hx
    obtain ⟨hlt, hs⟩ := List.getElem?_eq_some_iff.mp hs
    cases j with
    | zero =>
      have hrow : isRow x.2 = true := hs ▸ List.findIdx_getElem
      exact shown?_of_isRow hrow _ _
    | succ j => rw [any_take_eq_true (by omega) (by omega)]
  have hlen : ((lines.zip slots).drop (slots.findIdx isRow)).length =
      min lines.length slots.length - slots.findIdx isRow := by
    rw [List.length_drop, List.length_zip]
  rw [List.flatMap_congr fun x _ => bodyLines_eq_toList rows x,
    ← List.filterMap_eq_flatMap_toList, ← filterMap_range' _ hshown, hlen]

/-- A row stands in the table as often as a slot for it has a line. -/
theorem replicate_sublist_flatMap_bodyLines (hr : rows[n]? = some row)
    (entries : List (Text × Slot)) :
    (List.replicate (entries.countP fun x => x.2 = .row n) (indent ++ row)).Sublist
      (entries.flatMap (bodyLines rows)) := by
  induction entries with
  | nil => exact List.Sublist.refl _
  | cons x entries ih =>
    obtain ⟨line, slot⟩ := x
    rw [List.flatMap_cons]
    by_cases hs : slot = .row n
    · have hb : bodyLines rows (line, slot) = [indent ++ row] := by simp [bodyLines, hs, hr]
      rw [List.countP_cons_of_pos (by simpa using hs), List.replicate_succ, hb]
      exact ih.cons_cons _
    · rw [List.countP_cons_of_neg (by simpa using hs)]
      exact ih.trans (List.sublist_append_right _ _)

theorem countP_drop_findIdx (lines : List Text) (slots : List Slot) (n : Nat) :
    ((lines.zip slots).drop (slots.findIdx isRow)).countP (fun x => x.2 = .row n) =
      (lines.zip slots).countP fun x => x.2 = .row n := by
  have ht : ((lines.zip slots).take (slots.findIdx isRow)).countP (fun x => x.2 = .row n) = 0 := by
    rw [List.countP_eq_zero]
    intro x hx hn
    have hs : x.2 = .row n := by simpa using hn
    have hrow := isRow_of_mem_take hx
    rw [hs] at hrow
    exact Bool.noConfusion hrow
  calc ((lines.zip slots).drop (slots.findIdx isRow)).countP (fun x => x.2 = .row n)
      = ((lines.zip slots).take (slots.findIdx isRow)).countP (fun x => x.2 = .row n)
        + ((lines.zip slots).drop (slots.findIdx isRow)).countP (fun x => x.2 = .row n) := by
        rw [ht, Nat.zero_add]
    _ = (lines.zip slots).countP fun x => x.2 = .row n := by
        rw [← List.countP_append, List.take_append_drop]

/-! Positions that are taken out. -/

theorem zip_eraseIdx (lines : List Text) (slots : List Slot) (i : Nat) :
    (lines.eraseIdx i).zip (slots.eraseIdx i) = (lines.zip slots).eraseIdx i := by
  induction lines generalizing slots i with
  | nil => simp
  | cons line lines ih =>
    cases slots with
    | nil => simp
    | cons slot slots =>
      cases i with
      | zero => rfl
      | succ i => simp [ih]

theorem exists_eraseIdx_eq (h : entries[i]? = some x) :
    ∃ a b, entries = a ++ x :: b ∧ entries.eraseIdx i = a ++ b ∧ entries.take i = a := by
  obtain ⟨hi, rfl⟩ := List.getElem?_eq_some_iff.mp h
  exact ⟨entries.take i, entries.drop (i + 1),
    by rw [List.getElem_cons_drop, List.take_append_drop], List.eraseIdx_eq_take_drop_succ .., rfl⟩

/-- A listing depends on the lines with their slots that are not dropped. -/
theorem write_congr {lines' : List Text} {slots' : List Slot} (h : Header)
    (he : (lines.zip slots).filter isShown = (lines'.zip slots').filter isShown)
    (rows : List Text) : write h lines slots rows = write h lines' slots' rows := by
  have hz : ((lines.zip slots).filter isShown).unzip.1.zip
      ((lines.zip slots).filter isShown).unzip.2 = (lines.zip slots).filter isShown :=
    List.zip_unzip _
  rw [← write_filter_isShown h hz, write_filter_isShown h (hz.trans he)]

theorem write_eraseIdx_of_drop (h : Header) (hi : (lines.zip slots)[i]? = some (line, .drop))
    (rows : List Text) :
    write h (lines.eraseIdx i) (slots.eraseIdx i) rows = write h lines slots rows := by
  obtain ⟨a, b, he, hr, -⟩ := exists_eraseIdx_eq hi
  refine write_congr h ?_ rows
  rw [zip_eraseIdx, hr, he, List.filter_append, List.filter_append,
    List.filter_cons_of_neg (by simp [isShown])]

/-- What follows the slot that opens the table does not matter for where it opens. -/
theorem takeWhile_append_of_isRow (hy : y ∈ entries) (hrow : isRow y.2 = true)
    (rest : List (Text × Slot)) :
    (entries ++ rest).takeWhile isUnrowed = entries.takeWhile isUnrowed ∧
      (entries ++ rest).dropWhile isUnrowed = entries.dropWhile isUnrowed ++ rest := by
  induction entries with
  | nil => exact absurd hy List.not_mem_nil
  | cons x entries ih =>
    cases hx : isUnrowed x with
    | false => simp [hx]
    | true =>
      have hne : y ≠ x := by
        rintro rfl
        simp [isUnrowed, hrow] at hx
      obtain ⟨ht, hd⟩ := ih ((List.mem_cons.mp hy).resolve_left hne)
      simp [hx, ht, hd]

/-- In the table, a slot for a row that there is not shows nothing. -/
theorem write_eraseIdx_of_dangling (h : Header) (hi : (lines.zip slots)[i]? = some (line, .row n))
    (hn : rows[n]? = none) (hj : slots[j]? = some (.row m)) (hji : j < i) :
    write h (lines.eraseIdx i) (slots.eraseIdx i) rows = write h lines slots rows := by
  obtain ⟨a, b, he, hr, ha⟩ := exists_eraseIdx_eq hi
  -- With a slot for a row before it, the table opens at the same place without it.
  obtain ⟨y, hy, hrow⟩ : ∃ y ∈ a, isRow y.2 = true := by
    have hlen : i < (lines.zip slots).length := (List.getElem?_eq_some_iff.mp hi).1
    obtain ⟨hjs, hs⟩ := List.getElem?_eq_some_iff.mp hj
    have hm : (lines.zip slots)[j] ∈ (lines.zip slots).take i :=
      List.mem_take_iff_getElem.mpr ⟨j, by omega, rfl⟩
    refine ⟨_, ha ▸ hm, ?_⟩
    rw [List.getElem_zip, hs]
    rfl
  obtain ⟨ht, hd⟩ := takeWhile_append_of_isRow hy hrow b
  obtain ⟨ht', hd'⟩ := takeWhile_append_of_isRow hy hrow ((line, .row n) :: b)
  have hb : bodyLines rows (line, .row n) = [] := by simp [bodyLines, hn]
  rw [write_eq_entries, write_eq_entries, zip_eraseIdx, hr, he, ht, hd, ht', hd']
  simp only [table, List.flatMap_append, List.flatMap_cons, hb, List.nil_append]

theorem preamble_eq (entries : List (Text × Slot)) :
    preamble entries = entries.flatMap preambleLines
      ++ if entries.flatMap preambleLines = [] then [] else [[]] := by
  simp only [preamble]
  split
  · rename_i hn
    rw [hn, List.append_nil]
  · rfl

/-- A listing depends only on the positions that have both a line and a slot. -/
theorem write_take (h : Header) (lines : List Text) (slots : List Slot) (rows : List Text) :
    write h (lines.take (min lines.length slots.length))
      (slots.take (min lines.length slots.length)) rows = write h lines slots rows := by
  have hz : (lines.take (min lines.length slots.length)).zip
      (slots.take (min lines.length slots.length)) = lines.zip slots := by
    rw [List.zip, ← List.take_zipWith, ← List.zip, ← List.length_zip, List.take_length]
  exact write_congr h (by rw [hz]) rows

/-- The positions before the first slot of a row and those from it on are all that count. -/
theorem range_eq_append (first k : Nat) :
    List.range k = List.range (min first k) ++ List.range' first (k - first) := by
  rcases Nat.le_total k first with h | h
  · rw [Nat.min_eq_right h, Nat.sub_eq_zero_of_le h, List.range'_zero, List.append_nil]
  · have hr := List.range'_append_1 (s := 0) (m := first) (n := k - first)
    rw [Nat.zero_add, Nat.add_sub_cancel' h] at hr
    rw [Nat.min_eq_left h, List.range_eq_range', List.range_eq_range', hr]

/--
A listing of lines and slots that need not fit together. Lines without a slot and slots without a
line do not count, and a position that is dropped, or that is for a row that there is not once the
table is open, can be taken out. Every other position shows one line, in order: those before the
first slot of a row before the table, the others in it, a row as often as there are slots for it.
-/
theorem write_by_positions (h : Header) (lines : List Text) (slots : List Slot) (rows : List Text) :
    let k := min lines.length slots.length
    let first := slots.findIdx isRow
    let before := (List.range (min first k)).filterMap (shownAt? lines rows slots)
    let inside := (List.range' first (k - first)).filterMap (shownAt? lines rows slots)
    write h (lines.take k) (slots.take k) rows = write h lines slots rows ∧
    (∀ i < k, slots[i]? = some .drop →
      write h (lines.eraseIdx i) (slots.eraseIdx i) rows = write h lines slots rows) ∧
    (∀ i < k, ∀ j < i, ∀ m n, slots[j]? = some (.row m) → slots[i]? = some (.row n) →
      rows[n]? = none →
        write h (lines.eraseIdx i) (slots.eraseIdx i) rows = write h lines slots rows) ∧
    write h lines slots rows = h.render ++ Text.unlines (before
      ++ (if before = [] then [] else [[]])
      ++ "const testcases = .\x7b".toList :: inside ++ ["\x7d;".toList]) ∧
    before ++ inside = (List.range k).filterMap (shownAt? lines rows slots) ∧
    (∀ i, (shownAt? lines rows slots i).isSome ↔ i < lines.length ∧
      (slots[i]? = some .pass ∨ ∃ n < rows.length, slots[i]? = some (.row n))) ∧
    ∀ n row, rows[n]? = some row →
      (List.replicate ((lines.zip slots).countP fun x => x.2 = .row n) (indent ++ row)).Sublist
        inside := by
  intro k first before inside
  have hentry : ∀ i < k, ∀ slot, slots[i]? = some slot →
      ∃ line, (lines.zip slots)[i]? = some (line, slot) := fun i hi slot hs => by
    have hl : i < lines.length := Nat.lt_of_lt_of_le hi (Nat.min_le_left _ _)
    exact ⟨lines[i], List.getElem?_zip_eq_some.mpr ⟨List.getElem?_eq_getElem hl, hs⟩⟩
  have hbefore : ((lines.zip slots).take first).flatMap preambleLines = before :=
    flatMap_preambleLines_take lines rows slots
  have hinside : ((lines.zip slots).drop first).flatMap (bodyLines rows) = inside :=
    flatMap_bodyLines_drop lines rows slots
  refine ⟨write_take h lines slots rows, fun i hi hs => ?_, fun i hi j hj m n hm hs hn => ?_,
    ?_, ?_, fun i => isSome_shownAt?_iff, fun n row hr => ?_⟩
  · obtain ⟨line, hx⟩ := hentry i hi _ hs
    exact write_eraseIdx_of_drop h hx rows
  · obtain ⟨line, hx⟩ := hentry i hi _ hs
    exact write_eraseIdx_of_dangling h hx hn hm hj
  · rw [write, preamble_eq, hbefore, table, hinside, ← List.append_assoc]
  · rw [range_eq_append first k, List.filterMap_append]
  · rw [← countP_drop_findIdx, ← hinside]
    exact replicate_sublist_flatMap_bodyLines hr _

/-- A line that is dropped, a row that there is not, a row that comes twice and a slot too many. -/
theorem write_by_positions_dangling :
    let h : Header := ⟨"gen".toList, .f32⟩
    let lines := ["a".toList, "b".toList, "c".toList, "d".toList, "e".toList]
    let slots := [.drop, .row 0, .row 7, .pass, .row 0, .pass]
    let rows := ["r".toList]
    write h (lines.take 5) (slots.take 5) rows = write h lines slots rows ∧
    write h (lines.eraseIdx 0) (slots.eraseIdx 0) rows = write h lines slots rows ∧
    write h (lines.eraseIdx 2) (slots.eraseIdx 2) rows = write h lines slots rows ∧
    (List.replicate 2 "    r".toList).Sublist
      ["    r".toList, "    d".toList, "    r".toList] := by
  intro h lines slots rows
  obtain ⟨htake, hdrop, hdangling, -, -, -, hrow⟩ := write_by_positions h lines slots rows
  exact ⟨htake, hdrop 0 (by decide) rfl, hdangling 2 (by decide) 1 (by decide) 0 7 rfl rfl rfl,
    hrow 0 "r".toList rfl⟩

end FloatCases.Listing
