import FloatCases.Listing

/-!
The lines of a file whose slots are dropped. Main statement: a listing is the same without them.
-/
namespace FloatCases.Listing

variable {lines rows : List Text} {slots : List Slot} {entries : List (Text × Slot)}

/-- Whether there is something for a line in a listing. -/
def isShown (x : Text × Slot) : Bool :=
  x.2 ≠ .drop

/-- Whether a line is not for a row. -/
def isUnrowed (x : Text × Slot) : Bool :=
  !isRow x.2

/-- The first row is the same whether it is looked up in the slots or in the lines that have one. -/
theorem take_findIdx_zip (lines : List Text) (slots : List Slot) :
    (lines.zip slots).take (slots.findIdx isRow) = (lines.zip slots).takeWhile isUnrowed ∧
      (lines.zip slots).drop (slots.findIdx isRow) = (lines.zip slots).dropWhile isUnrowed := by
  induction lines generalizing slots with
  | nil => simp
  | cons l lines ih =>
    cases slots with
    | nil => simp
    | cons slot slots =>
      obtain ⟨ht, hd⟩ := ih slots
      cases hs : isRow slot <;> simp [List.findIdx_cons, isUnrowed, hs, ← ht, ← hd]

/-- A listing by the lines that have a slot. -/
theorem write_eq_entries (h : Header) (lines : List Text) (slots : List Slot) (rows : List Text) :
    write h lines slots rows = h.render ++ Text.unlines
      (preamble ((lines.zip slots).takeWhile isUnrowed)
        ++ table rows ((lines.zip slots).dropWhile isUnrowed)) := by
  obtain ⟨ht, hd⟩ := take_findIdx_zip lines slots
  rw [write, ht, hd]

theorem flatMap_filter_isShown {part : Text × Slot → List Text}
    (h : ∀ text, part (text, .drop) = []) (entries : List (Text × Slot)) :
    (entries.filter isShown).flatMap part = entries.flatMap part := by
  induction entries with
  | nil => rfl
  | cons x entries ih =>
    obtain ⟨text, slot⟩ := x
    cases slot <;> simp [isShown, ih, h]

theorem not_isShown_or_isUnrowed : (fun x => !isShown x || isUnrowed x) = isUnrowed := by
  funext ⟨text, slot⟩
  cases slot <;> rfl

/-- A listing is the same without the lines whose slots are dropped. -/
theorem write_filter_isShown {lines' : List Text} {slots' : List Slot} (h : Header)
    (he : lines'.zip slots' = (lines.zip slots).filter isShown) (rows : List Text) :
    write h lines' slots' rows = write h lines slots rows := by
  have hp : preamble (((lines.zip slots).takeWhile isUnrowed).filter isShown) =
      preamble ((lines.zip slots).takeWhile isUnrowed) := by
    rw [preamble, flatMap_filter_isShown fun text => rfl, ← preamble]
  have ht : table rows (((lines.zip slots).dropWhile isUnrowed).filter isShown) =
      table rows ((lines.zip slots).dropWhile isUnrowed) := by
    rw [table, flatMap_filter_isShown fun text => rfl, ← table]
  rw [write_eq_entries, write_eq_entries, he, List.takeWhile_filter, List.dropWhile_filter,
    not_isShown_or_isUnrowed, hp, ht]

end FloatCases.Listing
