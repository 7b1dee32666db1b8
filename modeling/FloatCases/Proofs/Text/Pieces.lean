import FloatCases.Text.Basic

/-!
The pieces of a text between separators. Main statements: a piece holds no separator, and every
other character of the text is in a piece.
-/
namespace FloatCases.Text

variable {c d : Char} {s t w : Text} {ws : List Text}

theorem exists_intercalate_cons (t w : Text) (ws : List Text) :
    ∃ s, List.intercalate t (w :: ws) = w ++ s := by
  cases ws with
  | nil => exact ⟨[], by simp⟩
  | cons w' ws => exact ⟨t ++ List.intercalate t (w' :: ws), by simp⟩

/-- Every piece before the last but one has the separator after it. -/
theorem intercalate_append_cons (t : Text) (us : List Text) (w : Text) (ws : List Text) :
    List.intercalate t (us ++ w :: ws) = us.flatMap (· ++ t) ++ List.intercalate t (w :: ws) := by
  induction us with
  | nil => rfl
  | cons u us ih =>
    have hne : us ++ w :: ws ≠ [] := List.append_ne_nil_of_right_ne_nil us (List.cons_ne_nil w ws)
    rw [List.cons_append, List.intercalate_cons_of_ne_nil hne, ih, List.flatMap_cons,
      ← List.append_assoc]

theorem mem_intercalate (h : c ∈ List.intercalate t ws) : c ∈ t ∨ ∃ w ∈ ws, c ∈ w := by
  induction ws with
  | nil => simp at h
  | cons w ws ih =>
    cases ws with
    | nil => exact Or.inr ⟨w, List.mem_cons_self, by simpa using h⟩
    | cons w' ws =>
      rw [List.intercalate_cons_cons, List.mem_append, List.mem_append] at h
      rcases h with (h | h) | h
      · exact Or.inr ⟨w, List.mem_cons_self, h⟩
      · exact Or.inl h
      · rcases ih h with ht | ⟨v, hv, hc⟩
        · exact Or.inl ht
        · exact Or.inr ⟨v, List.mem_cons_of_mem w hv, hc⟩

theorem mem_intercalate_of_mem (hw : w ∈ ws) (hc : c ∈ w) : c ∈ List.intercalate t ws := by
  induction ws with
  | nil => simp at hw
  | cons v ws ih =>
    cases ws with
    | nil =>
      obtain rfl := List.mem_singleton.mp hw
      simpa using hc
    | cons v' ws =>
      rw [List.intercalate_cons_cons]
      rcases List.mem_cons.mp hw with rfl | hw
      · exact List.mem_append_left _ (List.mem_append_left _ hc)
      · exact List.mem_append_right _ (ih hw)

theorem not_mem_of_mem_splitOn (hw : w ∈ List.splitOn c s) : c ∉ w := by
  induction s generalizing w with
  | nil =>
    obtain rfl := List.mem_singleton.mp hw
    exact List.not_mem_nil
  | cons d s ih =>
    rw [List.splitOn_cons_eq_if_modifyHead] at hw
    split at hw
    · rcases List.mem_cons.mp hw with rfl | hw
      · exact List.not_mem_nil
      · exact ih hw
    · rename_i hd
      obtain ⟨v, vs, hv⟩ := List.exists_cons_of_ne_nil (List.splitOn_ne_nil c s)
      rw [hv] at hw ih
      rcases List.mem_cons.mp hw with rfl | hw
      · rintro (_ | ⟨_, hc⟩)
        · exact hd (beq_self_eq_true c)
        · exact ih List.mem_cons_self hc
      · exact ih (List.mem_cons_of_mem v hw)

theorem mem_of_mem_splitOn (hw : w ∈ List.splitOn d s) (hc : c ∈ w) : c ∈ s := by
  have h := mem_intercalate_of_mem (t := [d]) hw hc
  rwa [List.intercalate_splitOn] at h

theorem exists_mem_splitOn (hd : c ≠ d) (hc : c ∈ s) : ∃ w ∈ List.splitOn d s, c ∈ w := by
  have hi : c ∈ List.intercalate [d] (List.splitOn d s) := by rwa [List.intercalate_splitOn]
  rcases mem_intercalate hi with h | h
  · exact absurd (List.mem_singleton.mp h) hd
  · exact h

theorem mem_of_mem_dropReturn (h : c ∈ dropReturn s) : c ∈ s := by
  unfold dropReturn at h
  split at h
  · exact (List.dropLast_sublist s).subset h
  · exact h

/-- The lines of a text have no line feed. -/
theorem newline_not_mem_of_mem_lines (h : w ∈ lines s) : '\n' ∉ w := by
  have hp : ∀ v ∈ List.splitOn '\n' s, '\n' ∉ v := fun v hv => not_mem_of_mem_splitOn hv
  simp only [lines, List.mem_append, List.mem_map] at h
  rcases h with ⟨v, hv, rfl⟩ | h
  · exact fun hc => hp v ((List.dropLast_sublist _).subset hv) (mem_of_mem_dropReturn hc)
  · split at h
    · exact absurd h List.not_mem_nil
    · rename_i hne
      rw [List.mem_singleton.mp h]
      cases hl : (List.splitOn '\n' s).getLast? with
      | none => exact List.not_mem_nil
      | some v => exact hp v (List.mem_of_getLast? hl)

end FloatCases.Text
