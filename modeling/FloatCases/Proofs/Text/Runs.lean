import FloatCases.Text.Basic

/-!
Runs of characters of one class: a run is as long as it can be where what follows does not go on
with the class, so a text splits into a run and a rest in one way only.
-/
namespace FloatCases.Text

variable {p : Char → Bool} {c : Char} {w w' r r' s : Text}

/-- A text does not start with a character of a class. -/
def Stops (p : Char → Bool) (s : Text) : Prop :=
  ∀ c ∈ s.head?, p c = false

theorem stops_nil : Stops p [] := by
  simp [Stops]

@[simp]
theorem stops_cons : Stops p (c :: s) ↔ p c = false := by
  simp [Stops]

theorem stops_dropWhile : Stops p (s.dropWhile p) := by
  intro c hc
  have h := List.head?_dropWhile_not p s
  rw [Option.mem_def.mp hc] at h
  simpa using h

/-- A text that starts with a word of another class does not go on with this one. -/
theorem Stops.append (hne : w ≠ []) (hw : ∀ c ∈ w, p c = false) : Stops p (w ++ r) := by
  cases w with
  | nil => exact absurd rfl hne
  | cons c w => exact stops_cons.mpr (hw c List.mem_cons_self)

theorem Stops.append_of_ne_nil (h : Stops p w) (hne : w ≠ []) : Stops p (w ++ r) := by
  cases w with
  | nil => exact absurd rfl hne
  | cons c w => exact stops_cons.mpr (stops_cons.mp h)

theorem Stops.mono {q : Char → Bool} (h : Stops p s) (hq : ∀ c, q c = true → p c = true) :
    Stops q s := by
  intro c hc
  cases hqc : q c with
  | false => rfl
  | true => exact absurd (hq c hqc) (by simp [h c hc])

/-- A character of a class stands in front of what does not go on with the class. -/
theorem Stops.append_eq_cons (h : Stops p r) (hc : p c = true) (he : s ++ r = c :: w) :
    ∃ s', s = c :: s' ∧ w = s' ++ r := by
  cases s with
  | nil =>
    rw [List.nil_append] at he
    subst he
    exact absurd hc (by simp [stops_cons.mp h])
  | cons d s =>
    obtain ⟨rfl, rfl⟩ := List.cons.inj he
    exact ⟨s, rfl, rfl⟩

theorem Stops.takeWhile (h : Stops p r) : r.takeWhile p = [] := by
  cases r with
  | nil => rfl
  | cons c r => simp [stops_cons.mp h]

theorem Stops.dropWhile (h : Stops p r) : r.dropWhile p = r := by
  cases r with
  | nil => rfl
  | cons c r => simp [stops_cons.mp h]

theorem takeWhile_run (hw : ∀ c ∈ w, p c = true) (hr : Stops p r) : (w ++ r).takeWhile p = w := by
  rw [List.takeWhile_append_of_pos hw, hr.takeWhile, List.append_nil]

theorem dropWhile_run (hw : ∀ c ∈ w, p c = true) (hr : Stops p r) : (w ++ r).dropWhile p = r := by
  rw [List.dropWhile_append_of_pos hw, hr.dropWhile]

/-- A text that does not go on with a class does not lengthen the run before it. -/
theorem takeWhile_append (hr : Stops p r) : (s ++ r).takeWhile p = s.takeWhile p := by
  induction s with
  | nil => exact hr.takeWhile
  | cons c s ih =>
    cases hc : p c with
    | false => simp [hc]
    | true => simp [hc, ih]

theorem dropWhile_append (hr : Stops p r) : (s ++ r).dropWhile p = s.dropWhile p ++ r := by
  induction s with
  | nil => exact hr.dropWhile
  | cons c s ih =>
    cases hc : p c with
    | false => simp [hc]
    | true => simp [hc, ih]

/-- A text is a run and a rest in one way. -/
theorem run_append_inj (hw : ∀ c ∈ w, p c = true) (hr : Stops p r) (hw' : ∀ c ∈ w', p c = true)
    (hr' : Stops p r') (h : w ++ r = w' ++ r') : w = w' ∧ r = r' := by
  have ht := congrArg (List.takeWhile p) h
  have hd := congrArg (List.dropWhile p) h
  rw [takeWhile_run hw hr, takeWhile_run hw' hr'] at ht
  rw [dropWhile_run hw hr, dropWhile_run hw' hr'] at hd
  exact ⟨ht, hd⟩

end FloatCases.Text
