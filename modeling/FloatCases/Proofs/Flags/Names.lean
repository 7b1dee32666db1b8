import FloatCases.Flags

/-!
The names in flag lists. Main statement: a flag list is refused for the first of its trimmed pieces
that is no name, unless the list is a zero alone.
-/
namespace FloatCases.FlagSet

variable {s : Text} {ws : List Text} {e : UnknownFlag}

/-- The names that a flag list can hold. -/
def names : List Text :=
  emptyName :: Flag.all.map Flag.name

theorem flagOfName?_eq_none_iff : Flag.ofName? s = none ↔ ∀ x : Flag, x.name ≠ s := by
  simp only [Flag.ofName?, List.find?_eq_none, decide_eq_true_eq]
  exact ⟨fun h x => h x x.mem_all, fun h x _ => h x⟩

/-- What stands for no set is no name. -/
theorem ofName?_eq_none_iff : ofName? s = none ↔ s ∉ names := by
  have hn : s ∉ names ↔ s ≠ emptyName ∧ ∀ x : Flag, x.name ≠ s := by
    simp [names, Flag.mem_all]
  rw [hn, ofName?]
  split
  · rename_i hs
    simp [hs]
  · rename_i hs
    rw [Option.map_eq_none_iff, flagOfName?_eq_none_iff]
    exact ⟨fun h => ⟨hs, h⟩, fun h => h.2⟩

/-- The name that is reported is the first that is none. -/
theorem ofNames_eq_error_iff :
    ofNames ws = .error e ↔ ws.find? (fun w => w ∉ names) = some e.name := by
  induction ws with
  | nil => simp [ofNames]
  | cons w ws ih =>
    rw [ofNames]
    by_cases hn : w ∈ names
    · obtain ⟨x, hx⟩ := Option.ne_none_iff_exists'.mp fun h => ofName?_eq_none_iff.mp h hn
      rw [hx, List.find?_cons_of_neg (by simpa using hn), ← ih]
      cases ofNames ws <;> simp [Except.map]
    · rw [ofName?_eq_none_iff.mpr hn, List.find?_cons_of_pos (by simpa using hn)]
      constructor
      · rintro ⟨⟩
        rfl
      · rintro ⟨⟩
        rfl

/-- A flag list is refused for the first of its pieces that is no name, and for no other reason. -/
theorem parse_eq_error_iff :
    parse s = .error e ↔ Text.trim s ≠ ['0'] ∧
      ((List.splitOn '|' s).map Text.trim).find? (fun w => w ∉ names) = some e.name := by
  unfold parse
  split
  · rename_i hs
    simp [hs]
  · rename_i hs
    rw [ofNames_eq_error_iff]
    exact ⟨fun h => ⟨hs, h⟩, fun h => h.2⟩

end FloatCases.FlagSet
