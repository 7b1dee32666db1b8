import FloatCases.Grammar.Mismatch
import FloatCases.Proofs.Grammar.Matching

/-!
What is said about a mismatch. Main statement: a text that is no test case is blamed at a place
inside of it, and at least one rule is named.
-/
namespace FloatCases

variable {ρ : Type} {a b c : Attempts ρ} {p : Pattern ρ} {label : ρ} {n limit : Nat} {s : Text}

namespace Attempts

/-- Without a label only the start of the text is blamed. -/
def Named (a : Attempts ρ) : Prop :=
  a.labels = [] → a.place = 0

/-- What holds of the attempts at a text that ends at byte `limit` before and after some of them. -/
structure Grows (limit : Nat) (before after : Attempts ρ) : Prop where
  place_le : before.place ≤ after.place
  place_le_limit : before.place ≤ limit → after.place ≤ limit
  named : before.Named → after.Named

theorem Grows.refl (limit : Nat) (a : Attempts ρ) : Grows limit a a :=
  ⟨le_rfl, id, id⟩

theorem Grows.trans (h : Grows limit a b) (h' : Grows limit b c) : Grows limit a c :=
  ⟨h.place_le.trans h'.place_le, h'.place_le_limit ∘ h.place_le_limit, h'.named ∘ h.named⟩

theorem place_eq_of_countAt_ne_zero (h : a.countAt n ≠ 0) : a.place = n ∧ a.labels ≠ [] := by
  rw [countAt] at h
  split at h
  · exact ⟨‹_›, fun hnil => h (by rw [hnil, List.length_nil])⟩
  · exact absurd rfl h

/-- What counts is the furthest place. -/
theorem place_note (before inside : Attempts ρ) (label : ρ) (n : Nat) :
    (note before inside label n).place = max inside.place n := by
  rw [note]
  split
  · rename_i h
    rcases h with h | h
    · obtain ⟨hp, -⟩ := place_eq_of_countAt_ne_zero (h.trans_ne (Nat.succ_ne_zero _))
      omega
    · omega
  · split
    all_goals
      change n = max inside.place n
      omega

theorem labels_note_ne_nil (hb : b.Named) : (note a b label n).labels ≠ [] := by
  rw [note]
  split
  · rename_i h
    rcases h with h | h
    · exact (place_eq_of_countAt_ne_zero (h.trans_ne (Nat.succ_ne_zero _))).2
    · intro hnil
      have hplace := hb hnil
      omega
  · split
    · exact List.append_ne_nil_of_right_ne_nil _ (List.cons_ne_nil label [])
    · exact List.cons_ne_nil label []

theorem grows_note (hn : n ≤ limit) (h : Grows limit a b) : Grows limit a (note a b label n) where
  place_le := by
    rw [place_note]
    exact h.place_le.trans (le_max_left _ _)
  place_le_limit ha := by
    rw [place_note]
    exact max_le (h.place_le_limit ha) hn
  named ha hnil := absurd hnil (labels_note_ne_nil (h.named ha))

end Attempts

namespace Pattern

open Attempts

theorem byteSize_of_consumed {m : Match ρ} (h : m.consumed ++ m.rest = s) :
    Text.byteSize m.consumed + Text.byteSize m.rest = Text.byteSize s := by
  rw [← h, Text.byteSize_append]

theorem grows_iterateAttempts {step : Nat → Text → Option (Match ρ)}
    {attempts : Nat → Text → Attempts ρ → Attempts ρ}
    (hstep : ∀ n s m, step n s = some m → m.consumed ++ m.rest = s)
    (h : ∀ n s a, n + Text.byteSize s ≤ limit → Grows limit a (attempts n s a)) (k : Nat)
    (hs : n + Text.byteSize s ≤ limit) :
    Grows limit a (iterateAttempts step attempts k n s a) := by
  induction k generalizing n s a with
  | zero => exact .refl limit a
  | succ k ih =>
    rw [iterateAttempts]
    cases hm : step n s with
    | none => exact h n s a hs
    | some m =>
      have hrest := byteSize_of_consumed (hstep n s m hm)
      exact (h n s a hs).trans (ih (by omega))

/-- Trying a pattern at a text goes no further than the text. -/
theorem grows_attempts (p : Pattern ρ) (a : Attempts ρ) (hs : n + Text.byteSize s ≤ limit) :
    Grows limit a (p.attempts n s a) := by
  induction p generalizing n s a with
  | char _ | text _ => exact .refl limit a
  | seq p q ihp ihq =>
    rw [attempts]
    cases hm : p.matchAt n s with
    | none => exact ihp a hs
    | some m =>
      have hrest := byteSize_of_consumed (describes_of_matchAt hm).1
      exact (ihp a hs).trans (ihq _ (by omega))
  | alt p q ihp ihq =>
    rw [attempts]
    split
    · exact ihp a hs
    · exact (ihp a hs).trans (ihq _ hs)
  | opt p ih => exact ih a hs
  | many p ih =>
    exact grows_iterateAttempts (fun n s m hm => (describes_of_matchAt hm).1)
      (fun n s a h => ih a h) s.length hs
  | node label p ih =>
    rw [attempts]
    split
    · exact ih a hs
    · exact grows_note (by omega) (ih a hs)
  | token label p =>
    rw [attempts]
    split
    · exact .refl limit a
    · exact grows_note (by omega) (.refl limit a)
  | finish label =>
    rw [attempts]
    split
    · exact .refl limit a
    · exact grows_note (by omega) (.refl limit a)

/-- A part that does not match is blamed, or something inside of it or before it is. -/
theorem labels_attempts_ne_nil (ha : a.Named) (h : (node label p).matchAt n s = none) :
    ((node label p).attempts n s a).labels ≠ [] := by
  have hp : (p.matchAt n s).isSome = false := by simpa [matchAt] using h
  rw [attempts, hp]
  exact labels_note_ne_nil ((grows_attempts p a le_rfl).named ha)

end Pattern

namespace Rule

theorem mem_listed (r : Rule) : r ∈ listed := by
  cases r <;> decide

theorem isInfix_intercalate {w : Text} {ss : List Text} (sep : Text) (h : w ∈ ss) :
    w <:+: List.intercalate sep ss := by
  induction ss with
  | nil => cases h
  | cons t ss ih =>
    cases ss with
    | nil =>
      obtain rfl := List.mem_singleton.mp h
      simp
    | cons u ss =>
      rw [List.intercalate_cons_cons, List.append_assoc]
      rcases List.mem_cons.mp h with rfl | h
      · exact (List.prefix_append _ _).isInfix
      · exact (ih h).trans ((List.suffix_append _ _).trans (List.suffix_append _ _)).isInfix

theorem isInfix_enumerate {w : Text} {ss : List Text} (h : w ∈ ss) : w <:+: enumerate ss := by
  unfold enumerate
  split
  · cases h
  · obtain rfl := List.mem_singleton.mp h
    exact List.infix_rfl
  · rcases List.mem_pair.mp h with rfl | rfl
    · rw [List.append_assoc]
      exact (List.prefix_append _ _).isInfix
    · exact (List.suffix_append _ _).isInfix
  · have hne := List.ne_nil_of_mem h
    rw [← List.dropLast_append_getLast hne, List.mem_append, List.mem_singleton] at h
    rcases h with h | rfl
    · have hfront := isInfix_intercalate ", ".toList h
      rw [List.append_assoc]
      exact hfront.trans (List.prefix_append _ _).isInfix
    · rw [List.getLast?_eq_some_getLast hne, Option.getD_some]
      exact (List.suffix_append _ _).isInfix

/-- What is said about a mismatch names a rule that was tried in vain at a place in the text. -/
theorem mismatch_names (h : testcase.parse? s = none) :
    (testcase.pattern.attempts 0 s .nothing).place ≤ Text.byteSize s ∧
      ∃ r ∈ (testcase.pattern.attempts 0 s .nothing).labels, r.name <:+: testcase.mismatch s := by
  have hgrows := testcase.pattern.grows_attempts .nothing (Nat.zero_add (Text.byteSize s)).le
  have hmatch : testcase.pattern.matchAt 0 s = none := Option.map_eq_none_iff.mp h
  have hnamed : Attempts.nothing.Named (ρ := Rule) := fun _ => rfl
  refine ⟨hgrows.place_le_limit (Nat.zero_le _), ?_⟩
  obtain ⟨r, hr⟩ := List.exists_mem_of_ne_nil _ (Pattern.labels_attempts_ne_nil hnamed hmatch)
  have hin : r.name ∈ (listed.filter
      (· ∈ (testcase.pattern.attempts 0 s .nothing).labels)).map name :=
    List.mem_map_of_mem (List.mem_filter.mpr ⟨mem_listed r, decide_eq_true hr⟩)
  refine ⟨r, hr, (isInfix_enumerate hin).trans ?_⟩
  refine List.IsInfix.trans (List.suffix_append "  = expected ".toList _).isInfix ?_
  exact isInfix_intercalate ['\n'] (by simp)

end Rule
end FloatCases
