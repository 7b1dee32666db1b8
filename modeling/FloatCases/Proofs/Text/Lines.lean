import FloatCases.Proofs.Text.Pieces

/-!
Texts line by line. A text is some lines that are ended by line feeds and a rest without one; from
this form its lines are read off. Main statements: the lines of two texts in a row are those of the
one and then those of the other, if the first ends with a line feed; a text without some of its
lines has the others as its lines; and carriage returns before the line feeds and a line feed at the
end make no other lines.
-/
namespace FloatCases.Text

variable {s t r l : Text} {ls : List Text}

/--
A text without the lines that do not have a property. What ends a line is left out together with it,
and kept as it is otherwise.
-/
def keepLines (p : Text → Bool) (s : Text) : Text :=
  let pieces := List.splitOn '\n' s
  let last := pieces.getLast?.getD []
  unlines (pieces.dropLast.filter fun l => p (dropReturn l)) ++ if p last then last else []

/-- A text with a carriage return put before each of its line feeds. -/
def withReturns (s : Text) : Text :=
  s.flatMap fun c => if c = '\n' then ['\r', '\n'] else [c]

/-- A text that ends with a line feed, if it is not empty. -/
def Closed (s : Text) : Prop :=
  s = [] ∨ s.getLast? = some '\n'

@[simp]
theorem unlines_nil : unlines [] = [] :=
  rfl

@[simp]
theorem unlines_cons (l : Text) (ls : List Text) : unlines (l :: ls) = l ++ '\n' :: unlines ls := by
  simp [unlines]

@[simp]
theorem unlines_append (ls ls' : List Text) : unlines (ls ++ ls') = unlines ls ++ unlines ls' :=
  List.flatMap_append

theorem splitOn_unlines_append (hl : ∀ l ∈ ls, '\n' ∉ l) (hr : '\n' ∉ r) :
    List.splitOn '\n' (unlines ls ++ r) = ls ++ [r] := by
  induction ls with
  | nil => exact List.splitOn_eq_singleton hr
  | cons l ls ih =>
    obtain ⟨hl, hls⟩ := List.forall_mem_cons.mp hl
    rw [unlines_cons, List.append_assoc, List.cons_append,
      List.splitOn_append_cons_self_of_not_mem hl, ih hls, List.cons_append]

/-- The pieces between line feeds are the lines that they end, and the rest. -/
theorem unlines_dropLast_append {ps : List Text} (hp : ps ≠ []) :
    unlines ps.dropLast ++ ps.getLast?.getD [] = List.intercalate ['\n'] ps := by
  induction ps with
  | nil => exact absurd rfl hp
  | cons p ps ih =>
    cases ps with
    | nil => simp
    | cons q ps =>
      have h := ih (List.cons_ne_nil q ps)
      rw [List.intercalate_cons_cons, ← h]
      simp

/-- A text is some lines that are ended by line feeds, and a rest without one. -/
theorem exists_unlines_append_eq (s : Text) :
    ∃ ls r, (∀ l ∈ ls, '\n' ∉ l) ∧ '\n' ∉ r ∧ s = unlines ls ++ r := by
  have hp : ∀ p ∈ List.splitOn '\n' s, '\n' ∉ p := fun p hp => not_mem_of_mem_splitOn hp
  have hne := List.splitOn_ne_nil '\n' s
  refine ⟨_, _, fun l hl => hp l ((List.dropLast_sublist _).subset hl), ?_,
    ((unlines_dropLast_append hne).trans (List.intercalate_splitOn '\n')).symm⟩
  rw [List.getLast?_eq_some_getLast hne]
  exact hp _ (List.getLast_mem hne)

theorem closed_unlines (ls : List Text) : Closed (unlines ls) := by
  rcases List.eq_nil_or_concat ls with rfl | ⟨ls, l, rfl⟩
  · exact Or.inl rfl
  · exact Or.inr (by simp)

/-- A text that ends with a line feed has no rest. -/
theorem Closed.exists_unlines_eq (h : Closed s) :
    ∃ ls, (∀ l ∈ ls, '\n' ∉ l) ∧ s = unlines ls := by
  obtain ⟨ls, r, hl, hr, rfl⟩ := exists_unlines_append_eq s
  refine ⟨ls, hl, ?_⟩
  cases hn : r.getLast? with
  | none => rw [List.getLast?_eq_none_iff.mp hn, List.append_nil]
  | some c =>
    have hc : (unlines ls ++ r).getLast? = some c := by simp [List.getLast?_append, hn]
    rcases h with h | h
    · simp [h] at hc
    · obtain rfl := Option.some.inj (h.symm.trans hc)
      exact absurd (List.mem_of_getLast? hn) hr

theorem lines_unlines_append (hl : ∀ l ∈ ls, '\n' ∉ l) (hr : '\n' ∉ r) :
    lines (unlines ls ++ r) = ls.map dropReturn ++ if r = [] then [] else [r] := by
  simp [lines, splitOn_unlines_append hl hr]

theorem keepLines_unlines_append (p : Text → Bool) (hl : ∀ l ∈ ls, '\n' ∉ l) (hr : '\n' ∉ r) :
    keepLines p (unlines ls ++ r) =
      unlines (ls.filter fun l => p (dropReturn l)) ++ if p r then r else [] := by
  simp [keepLines, splitOn_unlines_append hl hr]

/-- The lines of two texts in a row are those of the one and then those of the other. -/
theorem lines_append (hs : Closed s) (t : Text) : lines (s ++ t) = lines s ++ lines t := by
  obtain ⟨ls, hl, rfl⟩ := hs.exists_unlines_eq
  obtain ⟨ls', r, hl', hr, rfl⟩ := exists_unlines_append_eq t
  have h := lines_unlines_append (List.forall_mem_append.mpr ⟨hl, hl'⟩) hr
  have hs := lines_unlines_append hl List.not_mem_nil
  rw [unlines_append, List.append_assoc] at h
  rw [List.append_nil] at hs
  rw [h, hs, lines_unlines_append hl' hr]
  simp

/-- The lines that are kept are the lines with the property. -/
theorem lines_keepLines (p : Text → Bool) (s : Text) :
    lines (keepLines p s) = (lines s).filter p := by
  obtain ⟨ls, r, hl, hr, rfl⟩ := exists_unlines_append_eq s
  have hk : ∀ l ∈ ls.filter fun l => p (dropReturn l), '\n' ∉ l :=
    fun l h => hl l (List.mem_filter.mp h).1
  have hr' : '\n' ∉ if p r then r else [] := by
    split
    · exact hr
    · exact List.not_mem_nil
  rw [keepLines_unlines_append p hl hr, lines_unlines_append hk hr', lines_unlines_append hl hr,
    List.filter_append, List.filter_map]
  congr 1
  by_cases hn : r = [] <;> cases hp : p r <;> simp [hn, hp]

/-- A line is left out with the carriage return and the line feed that end it. -/
example : keepLines (· ≠ ['b']) "a\nb\r\nc\r\n".toList = "a\nc\r\n".toList := by decide

theorem map_dropReturn_eq_self (h : ∀ l ∈ ls, l.getLast? ≠ some '\r') : ls.map dropReturn = ls := by
  have hd : ls.map dropReturn = ls.map id := List.map_congr_left fun l hl => if_neg (h l hl)
  rw [hd, List.map_id]

/-- Lines are read back as they were written, if they do not end with a carriage return. -/
theorem lines_unlines (hl : ∀ l ∈ ls, '\n' ∉ l) (hr : ∀ l ∈ ls, l.getLast? ≠ some '\r') :
    lines (unlines ls) = ls := by
  have h := lines_unlines_append hl List.not_mem_nil
  rw [List.append_nil] at h
  rw [h, map_dropReturn_eq_self hr]
  simp

theorem withReturns_eq_self (h : '\n' ∉ s) : withReturns s = s := by
  induction s with
  | nil => rfl
  | cons c s ih =>
    obtain ⟨hc, hs⟩ := not_or.mp fun hm => h (List.mem_cons.mpr hm)
    rw [withReturns, List.flatMap_cons, if_neg (Ne.symm hc), ← withReturns, ih hs]
    rfl

/-- A carriage return is put at the end of every line that a line feed ends. -/
theorem withReturns_unlines_append (hl : ∀ l ∈ ls, '\n' ∉ l) (hr : '\n' ∉ r) :
    withReturns (unlines ls ++ r) = unlines (ls.map (· ++ ['\r'])) ++ r := by
  induction ls with
  | nil => exact withReturns_eq_self hr
  | cons l ls ih =>
    obtain ⟨hl, hls⟩ := List.forall_mem_cons.mp hl
    have hline : withReturns l = l := withReturns_eq_self hl
    have hrest := ih hls
    simp only [withReturns] at hline hrest
    simp [withReturns, List.flatMap_append, hline, hrest]

theorem dropReturn_append_return (l : Text) : dropReturn (l ++ ['\r']) = l := by
  simp [dropReturn]

/-- The lines of a text do not change if carriage returns are put before its line feeds. -/
theorem lines_withReturns (h : '\r' ∉ s) : lines (withReturns s) = lines s := by
  obtain ⟨ls, r, hl, hr, rfl⟩ := exists_unlines_append_eq s
  have hplain : ∀ l ∈ ls, l.getLast? ≠ some '\r' := by
    intro l hls hlast
    refine h (List.mem_append_left r (List.mem_flatMap.mpr ⟨l, hls, ?_⟩))
    exact List.mem_append_left _ (List.mem_of_getLast? hlast)
  have hreturn : ∀ l ∈ ls.map (· ++ ['\r']), '\n' ∉ l := by
    intro l' hl'
    obtain ⟨l, hls, rfl⟩ := List.mem_map.mp hl'
    simpa using hl l hls
  have hback : (ls.map (· ++ ['\r'])).map dropReturn = ls := by
    simp [Function.comp_def, dropReturn_append_return]
  rw [withReturns_unlines_append hl hr, lines_unlines_append hreturn hr, hback,
    lines_unlines_append hl hr, map_dropReturn_eq_self hplain]

/-- The lines of a text do not change if a line feed is put after its last line, which is open. -/
theorem lines_append_newline (hs : ¬ Closed s) (hr : s.getLast? ≠ some '\r') :
    lines (s ++ ['\n']) = lines s := by
  obtain ⟨ls, r, hl, hn, rfl⟩ := exists_unlines_append_eq s
  have hne : r ≠ [] := by
    rintro rfl
    refine hs ?_
    rw [List.append_nil]
    exact closed_unlines ls
  have hlast : r.getLast? ≠ some '\r' := by
    intro h
    exact hr (by rw [List.getLast?_append, h, Option.some_or])
  have hends : unlines ls ++ r ++ ['\n'] = unlines (ls ++ [r]) ++ [] := by simp
  have hall : ∀ l ∈ ls ++ [r], '\n' ∉ l :=
    List.forall_mem_append.mpr ⟨hl, List.forall_mem_singleton.mpr hn⟩
  rw [hends, lines_unlines_append hall List.not_mem_nil, lines_unlines_append hl hn, if_neg hne,
    List.map_append, List.map_singleton, dropReturn, if_neg hlast]
  simp

/-- The characters of the lines are characters of the text. -/
theorem mem_of_mem_lines {c : Char} (h : l ∈ lines s) (hc : c ∈ l) : c ∈ s := by
  obtain ⟨ls, r, hl, hr, rfl⟩ := exists_unlines_append_eq s
  rw [lines_unlines_append hl hr] at h
  rcases List.mem_append.mp h with h | h
  · obtain ⟨l, hl, rfl⟩ := List.mem_map.mp h
    refine List.mem_append_left _ (List.mem_flatMap.mpr ⟨l, hl, ?_⟩)
    exact List.mem_append_left _ (mem_of_mem_dropReturn hc)
  · split at h
    · exact absurd h List.not_mem_nil
    · exact List.mem_append_right _ (List.mem_singleton.mp h ▸ hc)

end FloatCases.Text
