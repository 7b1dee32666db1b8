import FloatCases.Log.Standard
import Mathlib.Tactic.Common

/-!
Settings of the log. Main statement: in the log as it is kept if nothing else is given, the name of
a threshold stands for it in letters of either case, and nothing is left out of a setting that can
be read.
-/
namespace FloatCases

variable {s : Text} {t : Threshold} {c : Char} {ds : List Directive}

namespace Threshold

theorem name_of_ofName? (h : ofName? s = some t) : t.name = s.map Char.toUpper := by
  simpa using List.find?_some h

/-- A character that no name holds is in no text that is read as a name. -/
theorem not_mem_of_ofName? (hc : c.toUpper = c) (hn : ∀ t ∈ all, c ∉ t.name)
    (h : ofName? s = some t) : c ∉ s := by
  intro hs
  have hm : c ∈ t.name := by
    rw [name_of_ofName? h, ← hc]
    exact List.mem_map_of_mem hs
  exact hn t (List.mem_of_find?_eq_some h) hm

theorem ne_nil_of_ofName? (h : ofName? s = some t) : s ≠ [] := by
  rintro rfl
  exact absurd h (by decide +revert)

end Threshold

namespace Directive

/-- The name of a threshold is a directive for all parts of the program. -/
theorem ofText?_of_name (h : Threshold.ofName? s = some t) : ofText? s = some ⟨[], t⟩ := by
  have he : '=' ∉ s := Threshold.not_mem_of_ofName? rfl (by decide) h
  have ht : threshold? s = some t := by rw [threshold?, h]; rfl
  simp [ofText?, List.splitOn_eq_singleton he, ht]

theorem listOf?_of_name (h : Threshold.ofName? s = some t) : listOf? s = some [⟨[], t⟩] := by
  have hc : ',' ∉ s := Threshold.not_mem_of_ofName? rfl (by decide) h
  rw [listOf?, if_neg (Threshold.ne_nil_of_ofName? h), List.splitOn_eq_singleton hc]
  simp [ofText?_of_name h]

theorem filter_singleton (t : Threshold) : filter [⟨[], t⟩] = t.filter := by
  funext name l
  simp [filter, for?, Threshold.filter]

/-- Where every element of a list is read, none is left out. -/
theorem filterMap_of_mapM {α β : Type} {f : α → Option β} {xs : List α} {ys : List β}
    (h : xs.mapM f = some ys) : xs.filterMap f = ys ∧ ys.length = xs.length := by
  induction xs generalizing ys with
  | nil =>
    obtain rfl : [] = ys := by simpa using h
    exact ⟨rfl, rfl⟩
  | cons x xs ih =>
    rw [List.mapM_cons] at h
    obtain ⟨y, hy, h⟩ := Option.bind_eq_some_iff.mp h
    obtain ⟨zs, hzs, h⟩ := Option.bind_eq_some_iff.mp h
    obtain rfl := Option.some.inj h
    obtain ⟨hf, hl⟩ := ih hzs
    exact ⟨by rw [List.filterMap_cons, hy, hf], by rw [List.length_cons, hl, List.length_cons]⟩

theorem listOf_of_listOf? (h : listOf? s = some ds) : listOf s = ds := by
  rw [listOf?] at h
  split at h
  · rename_i hs
    obtain rfl := Option.some.inj h
    rw [hs]
    rfl
  · obtain ⟨hds, hl⟩ := filterMap_of_mapM h
    have hne : ds ≠ [] := by
      rintro rfl
      exact List.splitOn_ne_nil _ _ (List.length_eq_zero_iff.mp hl.symm)
    simp only [listOf, hds, if_neg hne]

end Directive

/-- Settings are read as the program relies on. -/
theorem Logger.standard_lawful : Logger.standard.Lawful where
  filter?_of_name s t h := by
    change (Directive.listOf? s).map Directive.filter = _
    rw [Directive.listOf?_of_name h, Option.map_some, Directive.filter_singleton]
  filter_of_filter? s f h := by
    obtain ⟨ds, hds, rfl⟩ := Option.map_eq_some_iff.mp h
    change Directive.filter (Directive.listOf s) = _
    rw [Directive.listOf_of_listOf? hds]

end FloatCases
