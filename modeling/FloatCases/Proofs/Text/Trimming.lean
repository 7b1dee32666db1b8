import FloatCases.Proofs.Text.Runs
import FloatCases.Text.Blank

/-!
White space at the ends of texts. Main statements: a text is its trimmed form with white space
around it, a trimmed text does not end in white space, and white space around a text or another trim
does not change its trimmed form.
-/
namespace FloatCases.Text

variable {c : Char} {s t w : Text}

/-- White space lies below or above the printing characters of ASCII. -/
theorem toNat_of_isBlank (h : isBlank c = true) : c.toNat ≤ 32 ∨ 133 ≤ c.toNat := by
  simp only [isBlank, blankRanges, List.any_cons, List.any_nil, Bool.or_eq_true, Bool.and_eq_true,
    decide_eq_true_eq, Bool.false_eq_true, or_false] at h
  omega

theorem trimEnd_eq_self (h : Stops isBlank s.reverse) : trimEnd s = s := by
  rw [trimEnd, h.dropWhile, List.reverse_reverse]

theorem stops_reverse_trimEnd (s : Text) : Stops isBlank (trimEnd s).reverse := by
  rw [trimEnd, List.reverse_reverse]
  exact stops_dropWhile

theorem exists_trimStart_eq (s : Text) :
    ∃ w, (∀ c ∈ w, isBlank c = true) ∧ s = w ++ trimStart s :=
  ⟨s.takeWhile isBlank, List.all_eq_true.mp List.all_takeWhile,
    List.takeWhile_append_dropWhile.symm⟩

theorem exists_trimEnd_eq (s : Text) :
    ∃ w, (∀ c ∈ w, isBlank c = true) ∧ s = trimEnd s ++ w := by
  obtain ⟨w, hw, hs⟩ := exists_trimStart_eq s.reverse
  refine ⟨w.reverse, by simpa using hw, ?_⟩
  have h := congrArg List.reverse hs
  rwa [List.reverse_reverse, List.reverse_append] at h

/-- A text is its trimmed form between white space. -/
theorem exists_trim_eq (s : Text) :
    ∃ w w', (∀ c ∈ w, isBlank c = true) ∧ (∀ c ∈ w', isBlank c = true) ∧
      s = w ++ (trim s ++ w') := by
  obtain ⟨w, hw, hs⟩ := exists_trimStart_eq s
  obtain ⟨w', hw', ht⟩ := exists_trimEnd_eq (trimStart s)
  exact ⟨w, w', hw, hw', by rw [trim, ← ht, ← hs]⟩

theorem trim_isInfix (s : Text) : trim s <:+: s := by
  obtain ⟨w, w', -, -, hs⟩ := exists_trim_eq s
  exact ⟨w, w', by rw [List.append_assoc, ← hs]⟩

theorem mem_of_mem_trimEnd (h : c ∈ trimEnd s) : c ∈ s := by
  obtain ⟨w, -, hs⟩ := exists_trimEnd_eq s
  rw [hs]
  exact List.mem_append_left w h

theorem mem_of_mem_trim (h : c ∈ trim s) : c ∈ s :=
  (trim_isInfix s).subset h

theorem mem_trim_of_mem (hc : c ∈ s) (hb : isBlank c = false) : c ∈ trim s := by
  obtain ⟨w, w', hw, hw', hs⟩ := exists_trim_eq s
  rw [hs] at hc
  rcases List.mem_append.mp hc with h | h
  · simp [hw c h] at hb
  rcases List.mem_append.mp h with h | h
  · exact h
  · simp [hw' c h] at hb

theorem stops_reverse_trim (s : Text) : Stops isBlank (trim s).reverse :=
  stops_reverse_trimEnd (trimStart s)

/-- The end of a text that does not end in white space does not either. -/
theorem stops_reverse_of_append (h : Stops isBlank (s ++ t).reverse) :
    Stops isBlank t.reverse := by
  cases ht : t.reverse with
  | nil => exact stops_nil
  | cons c r =>
    rw [List.reverse_append, ht] at h
    exact stops_cons.mpr (stops_cons.mp h)

theorem trim_append_of_isBlank (hw : ∀ c ∈ w, isBlank c = true) (s : Text) :
    trim (w ++ s) = trim s := by
  rw [trim, trimStart, List.dropWhile_append_of_pos hw]
  rfl

theorem trimEnd_append_of_isBlank (hw : ∀ c ∈ w, isBlank c = true) (s : Text) :
    trimEnd (s ++ w) = trimEnd s := by
  have hr : ∀ c ∈ w.reverse, isBlank c = true := fun c hc => hw c (List.mem_reverse.mp hc)
  rw [trimEnd, List.reverse_append, List.dropWhile_append_of_pos hr]
  rfl

theorem trim_append_isBlank (hw : ∀ c ∈ w, isBlank c = true) (s : Text) :
    trim (s ++ w) = trim s := by
  have hs : trimStart (s ++ w) = if (trimStart s).isEmpty then trimStart w else trimStart s ++ w :=
    List.dropWhile_append
  rw [trim, trim, hs]
  split
  · rename_i he
    have hn : trimStart w = [] := by simpa [trimStart] using dropWhile_run hw stops_nil
    rw [hn, List.isEmpty_iff.mp he]
  · exact trimEnd_append_of_isBlank hw _

/-- A character that is not white space stays at the start of a text. -/
theorem trimEnd_cons (hc : isBlank c = false) (s : Text) : trimEnd (c :: s) = c :: trimEnd s := by
  have hr : Stops isBlank [c] := stops_cons.mpr hc
  rw [trimEnd, List.reverse_cons, dropWhile_append hr, List.reverse_append]
  rfl

theorem trimEnd_append_cons (hc : isBlank c = false) (s t : Text) :
    trimEnd (s ++ c :: t) = s ++ c :: trimEnd t := by
  have hr : Stops isBlank (c :: s.reverse) := stops_cons.mpr hc
  have he : (s ++ c :: t).reverse = t.reverse ++ c :: s.reverse := by simp
  rw [trimEnd, he, dropWhile_append hr, List.reverse_append]
  simp [trimEnd]

theorem trimEnd_of_isBlank (hw : ∀ c ∈ w, isBlank c = true) : trimEnd w = [] :=
  trimEnd_append_of_isBlank hw []

theorem trimStart_cons (hc : isBlank c = false) (s : Text) : trimStart (c :: s) = c :: s :=
  (stops_cons.mpr hc : Stops isBlank (c :: s)).dropWhile

theorem trim_cons (hc : isBlank c = false) (s : Text) : trim (c :: s) = c :: trimEnd s := by
  rw [trim, trimStart_cons hc, trimEnd_cons hc]

@[simp]
theorem trim_trim (s : Text) : trim (trim s) = trim s := by
  have hs : trimStart (trim s) = trim s := by
    have hb : Stops isBlank (trimStart s) := stops_dropWhile
    rw [trim]
    cases ht : trimStart s with
    | nil => rfl
    | cons c r =>
      rw [ht] at hb
      have hc : isBlank c = false := stops_cons.mp hb
      rw [trimEnd_cons hc, trimStart_cons hc]
  rw [trim, hs, trimEnd_eq_self (stops_reverse_trim s)]

/-- What does not end in white space does not end in a carriage return. -/
theorem getLast?_ne_return (h : Stops isBlank s.reverse) : s.getLast? ≠ some '\r' := by
  intro hr
  have hb := h '\r' (by rw [List.head?_reverse]; exact hr)
  exact absurd hb (by decide)

end FloatCases.Text
