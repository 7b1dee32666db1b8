import FloatCases.Proofs.Flags.Names
import FloatCases.Proofs.Text.Pieces
import Mathlib.Logic.Function.Basic

/-!
The written form of flag sets. Main statements: its pieces between bars are names, it has capital
letters and bars only, and no two sets share one.
-/
namespace FloatCases

variable {c : Char} {w : Text} {x y : FlagSet}

theorem Flag.name_injective : Function.Injective name := fun x y h =>
  Option.some.inj (by rw [← ofName?_name x, h, ofName?_name])

namespace FlagSet

/-- The names that a set is written with. -/
def written (s : FlagSet) : List Text :=
  if s.members = [] then [emptyName] else s.members.map Flag.name

theorem display_eq (s : FlagSet) : s.display = List.intercalate ['|'] s.written := by
  unfold display written
  split
  · exact List.intercalate_singleton.symm
  · rfl

theorem written_ne_nil (s : FlagSet) : s.written ≠ [] := by
  unfold written
  split
  · exact List.cons_ne_nil _ _
  · simpa using ‹_›

theorem mem_names_of_mem_written (h : w ∈ x.written) : w ∈ names := by
  unfold written at h
  split at h
  · exact List.mem_singleton.mp h ▸ List.mem_cons_self
  · obtain ⟨f, -, rfl⟩ := List.mem_map.mp h
    exact List.mem_cons_of_mem _ (List.mem_map_of_mem f.mem_all)

/-- A name is a word of capital letters. -/
theorem isUpper_of_mem_names (h : w ∈ names) : w ≠ [] ∧ ∀ c ∈ w, c.isUpper = true := by
  have hall : names.all (fun w => !w.isEmpty && w.all Char.isUpper) = true := rfl
  simpa using List.all_eq_true.mp hall w h

/-- The pieces of the written form are the names. -/
theorem splitOn_display (s : FlagSet) : List.splitOn '|' s.display = s.written := by
  rw [display_eq]
  refine List.splitOn_intercalate '|' (fun w hw hbar => ?_) s.written_ne_nil
  exact absurd ((isUpper_of_mem_names (mem_names_of_mem_written hw)).2 '|' hbar) (by decide)

theorem mem_display (h : c ∈ x.display) : c = '|' ∨ c.isUpper = true := by
  rw [display_eq] at h
  rcases Text.mem_intercalate h with h | ⟨w, hw, hc⟩
  · exact Or.inl (List.mem_singleton.mp h)
  · exact Or.inr ((isUpper_of_mem_names (mem_names_of_mem_written hw)).2 c hc)

theorem display_ne_nil (s : FlagSet) : s.display ≠ [] := by
  intro h
  have hw := splitOn_display s
  rw [h, List.splitOn_nil] at hw
  have he : [] ∈ s.written := hw ▸ List.mem_singleton.mpr rfl
  exact (isUpper_of_mem_names (mem_names_of_mem_written he)).1 rfl

theorem eq_of_contains (h : ∀ f, x.contains f = y.contains f) : x = y := by
  cases x
  cases y
  simp only [mk.injEq]
  exact ⟨h .invalid, h .inexact, h .divByZero, h .overflow, h .underflow⟩

theorem members_injective : Function.Injective members := fun x y h =>
  eq_of_contains fun f => Bool.eq_iff_iff.mpr (by rw [← mem_members, h, mem_members])

theorem emptyName_ne_name (f : Flag) : emptyName ≠ f.name := by
  cases f <;> decide

theorem written_injective : Function.Injective written := by
  have hname : ∀ s : FlagSet, [emptyName] ≠ s.members.map Flag.name := by
    intro s h
    have hm : emptyName ∈ s.members.map Flag.name := h ▸ List.mem_singleton.mpr rfl
    obtain ⟨f, -, hf⟩ := List.mem_map.mp hm
    exact emptyName_ne_name f hf.symm
  intro x y h
  apply members_injective
  unfold written at h
  split at h <;> split at h
  · rename_i hx hy
    rw [hx, hy]
  · exact absurd h (hname y)
  · exact absurd h.symm (hname x)
  · exact (List.map_inj_right Flag.name_injective).mp h

/-- No two sets have the same written form. -/
theorem display_injective : Function.Injective display := fun x y h =>
  written_injective (by rw [← splitOn_display, h, splitOn_display])

end FlagSet
end FloatCases
