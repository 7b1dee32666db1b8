import FloatCases.Evidence.Lexeme
import FloatCases.Literal
import FloatCases.Proofs.Text.Runs

/-!
The written form of numerals. Main statements: a numeral is read back from its written form, also
where text follows that cannot be part of one, and what is read is the written form of a numeral.
-/
namespace FloatCases

open Grammar (isHexDigit)

/-- The written form of a type suffix or of none. -/
def Suffix.text : Option Suffix → Text
  | none => []
  | some .long => ['L']
  | some .quad => ['Q']

namespace Mantissa

/-- The written form of a fraction or of none. -/
def fractionText : Option Text → Text
  | none => []
  | some f => '.' :: f

def text (m : Mantissa) : Text :=
  Literal.sign m.negative ++ '0' :: 'x' :: m.digit :: fractionText m.fraction

/-- The digits of a mantissa are digits, and a fraction has at least one. -/
structure WellFormed (m : Mantissa) : Prop where
  digit : m.digit.isDigit = true
  fraction : ∀ f ∈ m.fraction, f ≠ [] ∧ ∀ c ∈ f, isHexDigit c = true

end Mantissa

namespace Scale

def text (e : Scale) : Text :=
  e.sign.toList ++ e.digits ++ Suffix.text e.suffix

/-- The exponent has at least one digit, and its sign is one. -/
structure WellFormed (e : Scale) : Prop where
  sign : ∀ c ∈ e.sign, c = '+' ∨ c = '-'
  digits_ne_nil : e.digits ≠ []
  digits : ∀ c ∈ e.digits, c.isDigit = true

end Scale

namespace Lexeme

variable {n : Bool} {m : Mantissa} {e : Scale} {x y : Lexeme} {f r s : Text}

def text (x : Lexeme) : Text :=
  x.mantissa.text ++ 'p' :: x.scale.text

theorem mem_text (x : Lexeme) : 'x' ∈ x.text := by
  simp [text, Mantissa.text]

structure WellFormed (x : Lexeme) : Prop where
  mantissa : x.mantissa.WellFormed
  scale : x.scale.WellFormed

/-- A character that can stand in a numeral. -/
def isNumeralChar (c : Char) : Bool :=
  isHexDigit c || c ∈ ['-', '+', '.', 'x', 'p', 'L', 'Q']

/-- The numeral that a whole text is the written form of. -/
def ofText? (s : Text) : Option Lexeme :=
  match step s with
  | (some x, []) => some x
  | _ => none

theorem isNumeralChar_of_isHexDigit {c : Char} (h : isHexDigit c = true) :
    isNumeralChar c = true := by
  simp [isNumeralChar, h]

theorem isHexDigit_of_isDigit {c : Char} (h : c.isDigit = true) : isHexDigit c = true := by
  simp [isHexDigit, h]

theorem toNat_of_isNumeralChar {c : Char} (h : isNumeralChar c = true) :
    33 ≤ c.toNat ∧ c.toNat ≤ 126 := by
  simp only [isNumeralChar, isHexDigit, Char.isDigit, Bool.or_eq_true, Bool.and_eq_true,
    decide_eq_true_eq, Char.le_def, UInt32.le_iff_toNat_le, List.mem_cons, List.not_mem_nil,
    or_false] at h
  rcases h with (⟨hl, hu⟩ | ⟨hl, hu⟩) | rfl | rfl | rfl | rfl | rfl | rfl | rfl
  · simp only [Char.toNat_val, Char.reduceToNat] at hl hu
    omega
  · simp only [Char.toNat_val, Char.reduceToNat] at hl hu
    omega
  all_goals decide

theorem takeFraction_point (hne : f ≠ []) (hf : ∀ c ∈ f, isHexDigit c = true)
    (hr : Text.Stops isHexDigit r) : takeFraction ('.' :: (f ++ r)) = (some f, r) := by
  simp [takeFraction, Text.takeWhile_run hf hr, Text.dropWhile_run hf hr, hne]

theorem takeMantissa?_text (hm : m.WellFormed) :
    takeMantissa? (m.text ++ 'p' :: r) = some (m, 'p' :: r) := by
  obtain ⟨negative, digit, fraction⟩ := m
  have hd : digit.isDigit = true := hm.digit
  have hf : takeFraction (Mantissa.fractionText fraction ++ 'p' :: r) = (fraction, 'p' :: r) := by
    cases fraction with
    | none => rfl
    | some f =>
      obtain ⟨hne, hf⟩ := hm.fraction f rfl
      exact takeFraction_point hne hf (Text.stops_cons.mpr (by decide))
  cases negative <;>
    simp [Mantissa.text, Literal.sign, takeMantissa?, takeMagnitude?, hd, hf]

theorem takeSign_text {sign : Option Char} (hs : ∀ c ∈ sign, c = '+' ∨ c = '-')
    (hr : Text.Stops (fun c => c = '+' ∨ c = '-') r) :
    takeSign (sign.toList ++ r) = (sign, r) := by
  cases sign with
  | none =>
    cases r with
    | nil => rfl
    | cons c r =>
      have hc : c ≠ '+' ∧ c ≠ '-' := by simpa using hr
      simp [takeSign, hc]
  | some c =>
    rcases hs c rfl with rfl | rfl <;> rfl

theorem takeSuffix_text {suffix : Option Suffix} (hr : Text.Stops isNumeralChar r) :
    takeSuffix (Suffix.text suffix ++ r) = (suffix, r) := by
  rcases suffix with _ | _ | _
  · cases r with
    | nil => rfl
    | cons c r =>
      have hc : isNumeralChar c = false := Text.stops_cons.mp hr
      have hl : c ≠ 'L' := by rintro rfl; exact absurd hc (by decide)
      have hq : c ≠ 'Q' := by rintro rfl; exact absurd hc (by decide)
      simp [Suffix.text, takeSuffix, hl, hq]
  · rfl
  · rfl

theorem stops_suffix (suffix : Option Suffix) (hr : Text.Stops isNumeralChar r) :
    Text.Stops Char.isDigit (Suffix.text suffix ++ r) := by
  rcases suffix with _ | _ | _
  · intro c hc
    cases hd : c.isDigit with
    | false => rfl
    | true =>
      have h : isNumeralChar c = false := hr c hc
      rw [isNumeralChar_of_isHexDigit (isHexDigit_of_isDigit hd)] at h
      exact absurd h (by decide)
  · exact Text.stops_cons.mpr (by decide)
  · exact Text.stops_cons.mpr (by decide)

theorem takeScale?_text (he : e.WellFormed) (hr : Text.Stops isNumeralChar r) :
    takeScale? (e.text ++ r) = some (e, r) := by
  obtain ⟨sign, digits, suffix⟩ := e
  have hne : digits ≠ [] := he.digits_ne_nil
  have hd : ∀ c ∈ digits, c.isDigit = true := he.digits
  have hs : takeSign (sign.toList ++ (digits ++ (Suffix.text suffix ++ r)))
      = (sign, digits ++ (Suffix.text suffix ++ r)) := by
    refine takeSign_text he.sign (Text.Stops.append hne fun c hc => ?_)
    have := hd c hc
    rcases Decidable.em (c = '+' ∨ c = '-') with (rfl | rfl) | h
    · exact absurd this (by decide)
    · exact absurd this (by decide)
    · simpa using h
  simp [Scale.text, takeScale?, hs, Text.takeWhile_run hd (stops_suffix suffix hr),
    Text.dropWhile_run hd (stops_suffix suffix hr), takeSuffix_text hr, hne]

/-- A numeral is read from the head of a text where it cannot go on. -/
theorem step_text (hx : x.WellFormed) (hr : Text.Stops isNumeralChar r) :
    step (x.text ++ r) = (some x, r) := by
  have hm : takeMantissa? (x.text ++ r) = some (x.mantissa, 'p' :: (x.scale.text ++ r)) := by
    rw [text, List.append_assoc]
    exact takeMantissa?_text hx.mantissa
  simp [step, hm, takeScale?_text hx.scale hr]

theorem takeFraction_sound (s : Text) :
    s = Mantissa.fractionText (takeFraction s).1 ++ (takeFraction s).2 ∧
      ∀ f ∈ (takeFraction s).1, f ≠ [] ∧ ∀ c ∈ f, isHexDigit c = true := by
  unfold takeFraction
  split
  · rename_i s
    split
    · exact ⟨rfl, by simp⟩
    · rename_i hne
      refine ⟨by simp [Mantissa.fractionText], ?_⟩
      rintro f ⟨⟩
      exact ⟨hne, List.all_eq_true.mp List.all_takeWhile⟩
  · exact ⟨rfl, by simp⟩

theorem takeMagnitude?_sound (h : takeMagnitude? n s = some (m, r)) :
    m.WellFormed ∧ Literal.sign n ++ s = m.text ++ r := by
  unfold takeMagnitude? at h
  split at h
  · rename_i d s
    obtain ⟨hs, hf⟩ := takeFraction_sound s
    split at h
    · rename_i hd
      obtain ⟨rfl, rfl⟩ := by simpa using h
      refine ⟨⟨hd, hf⟩, ?_⟩
      simpa [Mantissa.text] using hs
    · simp at h
  · simp at h

theorem takeMantissa?_sound (h : takeMantissa? s = some (m, r)) :
    m.WellFormed ∧ s = m.text ++ r := by
  unfold takeMantissa? at h
  split at h <;> exact takeMagnitude?_sound h

theorem takeSign_sound (s : Text) :
    s = (takeSign s).1.toList ++ (takeSign s).2 ∧ ∀ c ∈ (takeSign s).1, c = '+' ∨ c = '-' := by
  unfold takeSign
  split <;> simp

theorem takeSuffix_sound (s : Text) : s = Suffix.text (takeSuffix s).1 ++ (takeSuffix s).2 := by
  unfold takeSuffix
  split <;> rfl

theorem takeScale?_sound (h : takeScale? s = some (e, r)) : e.WellFormed ∧ s = e.text ++ r := by
  obtain ⟨hs, hsign⟩ := takeSign_sound s
  have hr := takeSuffix_sound ((takeSign s).2.dropWhile Char.isDigit)
  simp only [takeScale?] at h
  split at h
  · simp at h
  · rename_i hne
    obtain ⟨rfl, rfl⟩ := by simpa using h
    refine ⟨⟨hsign, hne, List.all_eq_true.mp List.all_takeWhile⟩, ?_⟩
    rw [Scale.text, List.append_assoc, ← hr, List.append_assoc, List.takeWhile_append_dropWhile]
    exact hs

/-- What a step reads is the written form of a numeral. -/
theorem step_sound (h : step s = (some x, r)) : x.WellFormed ∧ s = x.text ++ r := by
  unfold step at h
  split at h
  · simp at h
  · rename_i m rest hm
    obtain ⟨hm, hs⟩ := takeMantissa?_sound hm
    split at h
    · simp at h
    · rename_i e rest' he
      obtain ⟨he, hr⟩ := takeScale?_sound he
      obtain ⟨rfl, rfl⟩ := by simpa using h
      exact ⟨⟨hm, he⟩, by rw [hs, hr, text]; simp⟩
  · simp at h

theorem ofText?_eq_some_iff : ofText? s = some x ↔ x.WellFormed ∧ x.text = s := by
  constructor
  · intro h
    unfold ofText? at h
    split at h
    · rename_i y hs
      obtain rfl := Option.some.inj h
      obtain ⟨hy, hs⟩ := step_sound hs
      exact ⟨hy, by simpa using hs.symm⟩
    · simp at h
  · rintro ⟨hx, rfl⟩
    have hs := step_text hx Text.stops_nil
    rw [List.append_nil] at hs
    simp [ofText?, hs]

/-- A numeral is determined by its written form. -/
theorem text_inj (hx : x.WellFormed) (hy : y.WellFormed) (h : x.text = y.text) : x = y :=
  Option.some.inj ((ofText?_eq_some_iff.mpr ⟨hx, h⟩).symm.trans
    (ofText?_eq_some_iff.mpr ⟨hy, rfl⟩))

end Lexeme
end FloatCases
