import FloatCases.Evidence.Inference
import FloatCases.Proofs.Evidence.Numeral
import FloatCases.Proofs.Text.Digits

/-!
The scan for numerals over pieces of text. Main statements: a scan goes over a text and then over
what follows it, if a numeral cannot go on there, and it finds a numeral in its written form.
-/
namespace FloatCases

open Grammar (isHexDigit)

namespace Lexeme

variable {n : Bool} {m : Mantissa} {x : Lexeme} {c : Char} {r s w : Text}

theorem stops_isHexDigit (hr : Text.Stops isNumeralChar r) : Text.Stops isHexDigit r :=
  hr.mono fun _ => isNumeralChar_of_isHexDigit

theorem stops_isDigit (hr : Text.Stops isNumeralChar r) : Text.Stops Char.isDigit r :=
  (stops_isHexDigit hr).mono fun _ => isHexDigit_of_isDigit

theorem takeFraction_append (hr : Text.Stops isNumeralChar r) (s : Text) :
    takeFraction (s ++ r) = ((takeFraction s).1, (takeFraction s).2 ++ r) := by
  by_cases hs : ∃ t, s = '.' :: t
  · obtain ⟨t, rfl⟩ := hs
    simp only [List.cons_append, takeFraction, Text.takeWhile_append (stops_isHexDigit hr),
      Text.dropWhile_append (stops_isHexDigit hr)]
    split <;> rfl
  · have hn : ∀ t, s ++ r ≠ '.' :: t := by
      intro t ht
      obtain ⟨s', hs', -⟩ := hr.append_eq_cons (by decide) ht
      exact hs ⟨s', hs'⟩
    rw [takeFraction, takeFraction]
    · exact fun t ht => hs ⟨t, ht⟩
    · exact hn

theorem takeMagnitude?_eq_none (hs : ∀ d t, d.isDigit = true → s ≠ '0' :: 'x' :: d :: t) :
    takeMagnitude? n s = none := by
  unfold takeMagnitude?
  split
  · rename_i d t
    exact if_neg fun hd => hs d t hd rfl
  · rfl

theorem takeMagnitude?_append (hr : Text.Stops isNumeralChar r) (n : Bool) (s : Text) :
    takeMagnitude? n (s ++ r) = (takeMagnitude? n s).map fun x => (x.1, x.2 ++ r) := by
  by_cases hs : ∃ d t, d.isDigit = true ∧ s = '0' :: 'x' :: d :: t
  · obtain ⟨d, t, hd, rfl⟩ := hs
    simp [takeMagnitude?, hd, takeFraction_append hr]
  · rw [takeMagnitude?_eq_none fun d t hd ht => hs ⟨d, t, hd, ht⟩, takeMagnitude?_eq_none]
    · rfl
    · intro d t hd ht
      obtain ⟨s₁, rfl, h₁⟩ := hr.append_eq_cons (by decide) ht
      obtain ⟨s₂, rfl, h₂⟩ := hr.append_eq_cons (by decide) h₁.symm
      obtain ⟨s₃, rfl, -⟩ :=
        hr.append_eq_cons (isNumeralChar_of_isHexDigit (isHexDigit_of_isDigit hd)) h₂.symm
      exact hs ⟨d, s₃, hd, rfl⟩

theorem takeMantissa?_append (hr : Text.Stops isNumeralChar r) (s : Text) :
    takeMantissa? (s ++ r) = (takeMantissa? s).map fun x => (x.1, x.2 ++ r) := by
  by_cases hs : ∃ t, s = '-' :: t
  · obtain ⟨t, rfl⟩ := hs
    exact takeMagnitude?_append hr true t
  · rw [takeMantissa?, takeMantissa?, takeMagnitude?_append hr]
    · exact fun t ht => hs ⟨t, ht⟩
    · intro t ht
      obtain ⟨s', hs', -⟩ := hr.append_eq_cons (by decide) ht
      exact hs ⟨s', hs'⟩

theorem takeSign_append (hr : Text.Stops isNumeralChar r) (s : Text) :
    takeSign (s ++ r) = ((takeSign s).1, (takeSign s).2 ++ r) := by
  cases s with
  | nil =>
    have hs : Text.Stops (fun c => c = '+' ∨ c = '-') r := hr.mono (by simp; decide)
    have h : takeSign (Option.toList none ++ r) = (none, r) := takeSign_text (by simp) hs
    exact h
  | cons c s =>
    by_cases hp : c = '+'
    · subst hp
      rfl
    by_cases hm : c = '-'
    · subst hm
      rfl
    simp [takeSign, hp, hm]

theorem takeSuffix_append (hr : Text.Stops isNumeralChar r) (s : Text) :
    takeSuffix (s ++ r) = ((takeSuffix s).1, (takeSuffix s).2 ++ r) := by
  cases s with
  | nil =>
    have h : takeSuffix (Suffix.text none ++ r) = (none, r) := takeSuffix_text hr
    exact h
  | cons c s =>
    by_cases hl : c = 'L'
    · subst hl
      rfl
    by_cases hq : c = 'Q'
    · subst hq
      rfl
    simp [takeSuffix, hl, hq]

theorem takeScale?_append (hr : Text.Stops isNumeralChar r) (s : Text) :
    takeScale? (s ++ r) = (takeScale? s).map fun x => (x.1, x.2 ++ r) := by
  simp only [takeScale?, takeSign_append hr, Text.takeWhile_append (stops_isDigit hr),
    Text.dropWhile_append (stops_isDigit hr), takeSuffix_append hr]
  split <;> rfl

theorem step_of_none (hm : takeMantissa? s = none) : step s = (none, s.tail) := by
  simp [step, hm]

theorem step_of_not_p (hm : takeMantissa? s = some (m, w)) (hw : ∀ t, w ≠ 'p' :: t) :
    step s = (none, w) := by
  unfold step
  rw [hm]
  split
  · rename_i h
    simp at h
  · rename_i h
    exact absurd (congrArg Prod.snd (Option.some.inj h)) (hw _)
  · rename_i h
    obtain ⟨-, rfl⟩ := Prod.mk.inj (Option.some.inj h)
    rfl

/-- A step inside a text does not look at what follows, if a numeral cannot go on there. -/
theorem step_append (hs : s ≠ []) (hr : Text.Stops isNumeralChar r) :
    step (s ++ r) = ((step s).1, (step s).2 ++ r) := by
  have ha := takeMantissa?_append hr s
  cases hm : takeMantissa? s with
  | none =>
    rw [hm] at ha
    rw [step_of_none hm, step_of_none ha, List.tail_append_of_ne_nil hs]
  | some y =>
    obtain ⟨m, w⟩ := y
    rw [hm] at ha
    by_cases hw : ∃ t, w = 'p' :: t
    · obtain ⟨t, rfl⟩ := hw
      simp only [Option.map_some, List.cons_append] at ha
      simp only [step, hm, ha, takeScale?_append hr]
      cases takeScale? t <;> rfl
    · have hw' : ∀ t, w ++ r ≠ 'p' :: t := by
        intro t ht
        obtain ⟨t', ht', -⟩ := hr.append_eq_cons (by decide) ht
        exact hw ⟨t', ht'⟩
      rw [step_of_not_p hm fun t ht => hw ⟨t, ht⟩, step_of_not_p ha hw']

theorem scan_nil : scan [] = [] := by
  simp [scan]

theorem scan_of_ne_nil (hs : s ≠ []) : scan s = (step s).1.toList ++ scan (step s).2 := by
  cases s with
  | nil => exact absurd rfl hs
  | cons c s => rw [scan]

/-- A scan goes over a text and then over what follows it, if a numeral cannot go on there. -/
theorem scan_append (hr : Text.Stops isNumeralChar r) (s : Text) :
    scan (s ++ r) = scan s ++ scan r := by
  induction hk : s.length using Nat.strong_induction_on generalizing s with
  | _ k ih =>
    by_cases hs : s = []
    · rw [hs, scan_nil]
      rfl
    · have hlt := step_length_lt hs
      rw [scan_of_ne_nil (List.append_ne_nil_of_left_ne_nil hs r), step_append hs hr,
        ih _ (hk ▸ hlt) (step s).2 rfl, scan_of_ne_nil hs, List.append_assoc]

/-- Nothing is read of a character that cannot stand in a numeral. -/
theorem scan_cons (hc : isNumeralChar c = false) (s : Text) : scan (c :: s) = scan s := by
  have hn : takeMantissa? (c :: s) = none := by
    have h := takeMantissa?_append (Text.stops_cons.mpr hc : Text.Stops isNumeralChar (c :: s)) []
    exact h
  rw [scan, step_of_none hn]
  rfl

theorem scan_skip (hw : ∀ c ∈ w, isNumeralChar c = false) (s : Text) : scan (w ++ s) = scan s := by
  induction w with
  | nil => rfl
  | cons c w ih =>
    obtain ⟨hc, hw⟩ := List.forall_mem_cons.mp hw
    rw [List.cons_append, scan_cons hc, ih hw]

/-- A scan finds a numeral in its written form. -/
theorem scan_text (hx : x.WellFormed) : scan x.text = [x] := by
  have hs := step_text hx Text.stops_nil
  rw [List.append_nil] at hs
  have hne : x.text ≠ [] := List.append_ne_nil_of_right_ne_nil _ (List.cons_ne_nil _ _)
  rw [scan_of_ne_nil hne, hs, scan_nil]
  rfl

theorem takeMantissa?_of_not_mem (hs : 'x' ∉ s) : takeMantissa? s = none := by
  cases hm : takeMantissa? s with
  | none => rfl
  | some y =>
    obtain ⟨-, ht⟩ := takeMantissa?_sound hm
    exact absurd (by rw [ht]; simp [Mantissa.text]) hs

/-- There is no numeral without an `x`. -/
theorem scan_of_not_mem (hs : 'x' ∉ s) : scan s = [] := by
  induction s with
  | nil => exact scan_nil
  | cons c s ih =>
    rw [scan, step_of_none (takeMantissa?_of_not_mem hs)]
    exact ih fun h => hs (List.mem_cons_of_mem c h)

end Lexeme

namespace Scale

theorem foldl_min_eq (limit : Nat) {s : Text} (hs : ∀ c ∈ s, c.isDigit = true) (n : Nat) :
    s.foldl (fun n c => min (10 * n + (c.toNat - '0'.toNat)) limit) (min n limit) =
      min (s.foldl (fun n c => 10 * n + digitValue c) n) limit := by
  induction s generalizing n with
  | nil => rfl
  | cons c s ih =>
    obtain ⟨hc, hs⟩ := List.forall_mem_cons.mp hs
    have hv : digitValue c = c.toNat - '0'.toNat := if_pos hc
    have hm : min (10 * min n limit + digitValue c) limit =
        min (10 * n + digitValue c) limit := by omega
    rw [List.foldl_cons, List.foldl_cons, ← hv, hm, ih hs]

/-- The size of an exponent is the number that its digits stand for, up to a limit. -/
theorem magnitude_eq {e : Scale} (he : e.WellFormed) :
    e.magnitude = min (Text.number 10 e.digits) magnitudeLimit :=
  foldl_min_eq magnitudeLimit he.digits 0

end Scale
end FloatCases
