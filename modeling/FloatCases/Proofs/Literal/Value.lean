import FloatCases.Proofs.Literal.Reading
import FloatCases.Proofs.Text.Digits
import Mathlib.Data.List.Basic
import Mathlib.Data.Rat.Defs
import Mathlib.Algebra.Field.Rat
import Mathlib.Tactic.FieldSimp
import Mathlib.Tactic.Ring

/-!
The values of literals. Main statement: the canonical spelling of a literal in any format has the
value of the literal, has no type suffix, and changes a fraction only by zeros at its end.
-/
namespace FloatCases

/-- What a literal stands for. A zero has a sign, too. -/
inductive Value where
  | infinity (negative : Bool)
  | notANumber
  | finite (negative : Bool) (magnitude : ℚ)
  deriving DecidableEq

/-- The exact value of what stands before the `p` of a numeral, without its sign. -/
def Mantissa.magnitude (m : Mantissa) : ℚ :=
  let f := m.fraction.getD []
  digitValue m.digit + Text.number 16 f / 16 ^ f.length

/-- The exponent of a numeral, of any size. -/
def Scale.exponent (e : Scale) : ℤ :=
  if e.sign = some '-' then -Text.number 10 e.digits else Text.number 10 e.digits

/-- The exact value of a numeral. -/
def Lexeme.value (x : Lexeme) : Value :=
  .finite x.mantissa.negative (x.mantissa.magnitude * 2 ^ x.scale.exponent)

/-- The value of a special literal, of a numeral, or of a decimal digit with or without a sign. -/
def Value.ofText? (s : Text) : Option Value :=
  if s = "inf".toList then some (.infinity false)
  else if s = "-inf".toList then some (.infinity true)
  else if s = "nan".toList then some .notANumber
  else
    match s with
    | [d] => if d.isDigit then some (.finite false (digitValue d)) else none
    | ['-', d] => if d.isDigit then some (.finite true (digitValue d)) else none
    | s => (Lexeme.ofText? s).map Lexeme.value

variable {f : FloatFormat} {s t : Text} {l : Literal} {x : Lexeme} {negative : Bool}
  {digit c : Char} {fraction : Option Text} {digits : Text} {suffix : Option Suffix}

/-- A longer text with an `x` in it can only have the value of a numeral. -/
theorem Value.ofText?_eq_map (hx : 'x' ∈ s) (hl : 2 < s.length) :
    ofText? s = (Lexeme.ofText? s).map Lexeme.value := by
  have hne : ∀ t : Text, 'x' ∉ t → s ≠ t := fun t ht hs => ht (hs ▸ hx)
  unfold ofText?
  rw [if_neg (hne _ (by decide)), if_neg (hne _ (by decide)), if_neg (hne _ (by decide))]
  split
  · simp at hl
  · simp at hl
  · rfl

theorem Value.ofText?_text (hx : x.WellFormed) : ofText? x.text = some x.value := by
  have hl : 2 < x.text.length := by
    simp only [Lexeme.text, Mantissa.text, List.length_append, List.length_cons]
    omega
  rw [ofText?_eq_map x.mem_text hl, Lexeme.ofText?_eq_some_iff.mpr ⟨hx, rfl⟩, Option.map_some]

theorem Value.ofText?_digit (negative : Bool) (hd : digit.isDigit = true) :
    ofText? (Literal.sign negative ++ [digit]) = some (.finite negative (digitValue digit)) := by
  unfold ofText?
  cases negative <;> simp [Literal.sign, hd]

/-- Zeros at the end of a fraction do not change the value. -/
theorem Mantissa.magnitude_append_zeros (k : Nat) :
    (⟨negative, digit, some (s ++ List.replicate k '0')⟩ : Mantissa).magnitude =
      (⟨negative, digit, some s⟩ : Mantissa).magnitude := by
  simp only [magnitude, Option.getD_some, Text.number_append_zeros, List.length_append,
    List.length_replicate]
  push_cast
  rw [pow_add]
  field_simp

namespace Literal

open Grammar (isHexDigit)

theorem value_integerNumeral (hf : IsZeroFraction fraction) :
    (integerNumeral negative digit fraction suffix).value =
      .finite negative (digitValue digit) := by
  have hm : (⟨negative, digit, fraction⟩ : Mantissa).magnitude = digitValue digit := by
    rcases hf with rfl | rfl
    · simp [Mantissa.magnitude, Text.number]
    · simp [Mantissa.magnitude, Text.number, digitValue]
  have he : (⟨some '+', ['0'], suffix⟩ : Scale).exponent = 0 := by
    simp [Scale.exponent, Text.number, digitValue]
  simp [integerNumeral, Lexeme.value, hm, he]

theorem exists_padFraction_eq (n : Nat) (s : Text) :
    ∃ k, padFraction n s = s ++ List.replicate k '0' := by
  unfold padFraction
  split
  · exact ⟨n - s.length, rfl⟩
  · exact ⟨0, by simp⟩

theorem scaledNumeral_wellFormed_pad
    (hx : (scaledNumeral negative (some s) c digits suffix).WellFormed) (n : Nat) :
    (scaledNumeral negative (some (padFraction n s)) c digits none).WellFormed := by
  obtain ⟨hf, hc, hd⟩ := scaledNumeral_wellFormed.mp hx
  obtain ⟨hne, hs⟩ := hf s rfl
  obtain ⟨k, hk⟩ := exists_padFraction_eq n s
  refine scaledNumeral_wellFormed.mpr ⟨?_, hc, hd⟩
  rintro _ ⟨⟩
  rw [hk]
  refine ⟨by simp [hne], fun d hd => ?_⟩
  rcases List.mem_append.mp hd with hd | hd
  · exact hs d hd
  · rw [List.eq_of_mem_replicate hd]
    decide

theorem spelling_power :
    (Literal.power negative (c :: digits)).spelling f =
      (scaledNumeral negative none c digits none).text := by
  rw [scaledNumeral_text_none, Suffix.text, List.append_nil, ← List.append_assoc]
  rfl

theorem spelling_fractional :
    (Literal.fractional negative s (c :: digits)).spelling f =
      (scaledNumeral negative (some (padFraction f.hexDigits s)) c digits none).text := by
  rw [scaledNumeral_text_some, Suffix.text, List.append_nil, ← List.append_assoc,
    ← List.append_assoc]
  rfl

theorem value_scaledNumeral_pad (n : Nat) :
    (scaledNumeral negative (some (padFraction n s)) c digits none).value =
      (scaledNumeral negative (some s) c digits suffix).value := by
  obtain ⟨k, hk⟩ := exists_padFraction_eq n s
  simp only [scaledNumeral, Lexeme.value, hk, Mantissa.magnitude_append_zeros]
  rfl

/-- The canonical spelling of a literal has the value of the literal. -/
theorem value_spelling (h : Spells s l) :
    ∃ v, Value.ofText? (l.spelling f) = some v ∧ Value.ofText? s = some v := by
  cases h with
  | infinity negative => exact ⟨.infinity negative, by cases negative <;> exact ⟨rfl, rfl⟩⟩
  | notANumber => exact ⟨.notANumber, rfl, rfl⟩
  | negativeZero suffix hf =>
    refine ⟨.finite true (digitValue '0'), ?_, ?_⟩
    · change Value.ofText? (integerNumeral true '0' none none).text = _
      rw [Value.ofText?_text (integerNumeral_wellFormed _ _ (by decide) (Or.inl rfl)),
        value_integerNumeral (Or.inl rfl)]
    · rw [Value.ofText?_text (integerNumeral_wellFormed _ _ (by decide) hf),
        value_integerNumeral hf]
  | integer suffix hd hf hz =>
    refine ⟨_, Value.ofText?_digit _ hd, ?_⟩
    rw [Value.ofText?_text (integerNumeral_wellFormed _ _ hd hf), value_integerNumeral hf]
  | power hx hz =>
    refine ⟨_, ?_, Value.ofText?_text hx⟩
    rw [spelling_power, Value.ofText?_text
      (scaledNumeral_wellFormed.mpr (scaledNumeral_wellFormed.mp hx))]
    rfl
  | fractional hx hz =>
    refine ⟨_, ?_, Value.ofText?_text hx⟩
    rw [spelling_fractional, Value.ofText?_text (scaledNumeral_wellFormed_pad hx f.hexDigits),
      value_scaledNumeral_pad]

/-- A character of a canonical spelling. -/
def isCanonicalChar (c : Char) : Bool :=
  isHexDigit c || c ∈ ['-', '+', '.', 'x', 'p', 'i', 'n']

theorem isCanonicalChar_of_isHexDigit (h : isHexDigit c = true) : isCanonicalChar c = true := by
  simp [isCanonicalChar, h]

theorem isCanonicalChar_of_isDigit (h : c.isDigit = true) : isCanonicalChar c = true :=
  isCanonicalChar_of_isHexDigit (Lexeme.isHexDigit_of_isDigit h)

theorem isCanonicalChar_of_mem_sign (h : c ∈ sign negative) : isCanonicalChar c = true := by
  cases negative <;> simp_all [sign, isCanonicalChar]

theorem isCanonicalChar_of_mem_exponent (h : c = '+' ∨ c = '-')
    (hd : ∀ d ∈ digits, d.isDigit = true) : ∀ d ∈ c :: digits, isCanonicalChar d = true := by
  refine List.forall_mem_cons.mpr ⟨?_, fun d h => isCanonicalChar_of_isDigit (hd d h)⟩
  rcases h with rfl | rfl <;> decide

theorem isCanonicalChar_of_mem_spelling (h : Spells s l) :
    ∀ c ∈ l.spelling f, isCanonicalChar c = true := by
  cases h with
  | infinity negative =>
    exact List.forall_mem_append.mpr ⟨fun _ => isCanonicalChar_of_mem_sign, List.all_eq_true.mp rfl⟩
  | notANumber => exact List.all_eq_true.mp rfl
  | negativeZero suffix hf => exact List.all_eq_true.mp rfl
  | integer suffix hd hf hz =>
    exact List.forall_mem_append.mpr ⟨fun _ => isCanonicalChar_of_mem_sign,
      List.forall_mem_singleton.mpr (isCanonicalChar_of_isDigit hd)⟩
  | power hx hz =>
    obtain ⟨-, hc, -, hd⟩ := scaledNumeral_wellFormed.mp hx
    exact List.forall_mem_append.mpr ⟨List.forall_mem_append.mpr
      ⟨fun _ => isCanonicalChar_of_mem_sign, List.all_eq_true.mp rfl⟩,
        isCanonicalChar_of_mem_exponent hc hd⟩
  | fractional hx hz =>
    obtain ⟨hf, hc, -, hd⟩ :=
      scaledNumeral_wellFormed.mp (scaledNumeral_wellFormed_pad hx f.hexDigits)
    refine List.forall_mem_append.mpr ⟨List.forall_mem_append.mpr ⟨List.forall_mem_append.mpr
      ⟨fun _ => isCanonicalChar_of_mem_sign, List.all_eq_true.mp rfl⟩, ?_⟩, ?_⟩
    · exact fun d hd => isCanonicalChar_of_isHexDigit ((hf _ rfl).2 d hd)
    · exact List.forall_mem_cons.mpr ⟨by decide, isCanonicalChar_of_mem_exponent hc hd⟩

theorem isCanonicalChar_of_canonicalize (h : canonicalize f s = .ok t) :
    ∀ c ∈ t, isCanonicalChar c = true := by
  obtain ⟨l, hl, rfl⟩ := canonicalize_eq_ok_iff.mp h
  exact isCanonicalChar_of_mem_spelling (read?_eq_some_iff.mp hl)

/-- Only a fraction is spelled with a point, and only zeros are added to it. -/
theorem exists_fraction_of_spelling {fraction exponent : Text} (h : Spells s l)
    (ht : l.spelling f = sign negative ++ "0x1.".toList ++ fraction ++ 'p' :: exponent) :
    ∃ fraction' k suffix, fraction = fraction' ++ List.replicate k '0' ∧
      s = sign negative ++ "0x1.".toList ++ fraction' ++ 'p' :: exponent ++ Suffix.text suffix := by
  cases h with
  | infinity n =>
    change sign n ++ "inf".toList = _ at ht
    cases n <;> cases negative <;> simp [sign] at ht
  | notANumber =>
    change "nan".toList = _ at ht
    cases negative <;> simp [sign] at ht
  | negativeZero suffix hf =>
    change "-0x0p+0".toList = _ at ht
    cases negative <;> simp [sign] at ht
  | @integer n digit _ suffix hd hf hz =>
    change sign n ++ [digit] = _ at ht
    cases n <;> cases negative <;> simp [sign] at ht
  | @power n c digits suffix hx hz =>
    change sign n ++ "0x1p".toList ++ c :: digits = _ at ht
    cases n <;> cases negative <;> simp [sign] at ht
  | @fractional n s c digits suffix hx hz =>
    obtain ⟨hp, hc, -, hd⟩ :=
      scaledNumeral_wellFormed.mp (scaledNumeral_wellFormed_pad hx f.hexDigits)
    obtain ⟨k, hk⟩ := exists_padFraction_eq f.hexDigits s
    change sign n ++ "0x1.".toList ++ padFraction f.hexDigits s ++ 'p' :: c :: digits = _ at ht
    obtain ⟨rfl, hn⟩ : n = negative ∧ padFraction f.hexDigits s ++ 'p' :: c :: digits =
        fraction ++ 'p' :: exponent := by
      cases n <;> cases negative <;> simp_all [sign]
    have hpf : 'p' ∉ padFraction f.hexDigits s := fun h =>
      absurd ((hp _ rfl).2 'p' h) (by decide)
    have hpe : 'p' ∉ c :: digits := by
      intro h
      rcases List.mem_cons.mp h with rfl | h
      · exact absurd hc (by decide)
      · exact absurd (hd 'p' h) (by decide)
    obtain ⟨rfl, -, rfl⟩ := (List.append_cons_inj_of_notMem hpf hpe).mp hn
    exact ⟨s, k, suffix, hk, by simp [scaledNumeral_text_some]⟩

/--
A canonical spelling has a value, which is that of the literal with the sign of a zero. It has no
type suffix, and if it has a fraction, then the literal has the same sign, the same exponent and
this fraction up to zeros at the end.
-/
theorem canonicalize_preserves_value (h : canonicalize f s = .ok t) :
    (∃ v, Value.ofText? t = some v ∧ Value.ofText? s = some v) ∧ 'L' ∉ t ∧ 'Q' ∉ t ∧
      ∀ negative fraction exponent,
        t = sign negative ++ "0x1.".toList ++ fraction ++ 'p' :: exponent →
          ∃ fraction' k suffix, fraction = fraction' ++ List.replicate k '0' ∧
            s = sign negative ++ "0x1.".toList ++ fraction' ++ 'p' :: exponent
              ++ Suffix.text suffix := by
  obtain ⟨l, hl, rfl⟩ := canonicalize_eq_ok_iff.mp h
  have hs := read?_eq_some_iff.mp hl
  have hc := isCanonicalChar_of_mem_spelling (f := f) hs
  refine ⟨value_spelling hs, fun hL => ?_, fun hQ => ?_, fun _ _ _ ht => ?_⟩
  · exact absurd (hc 'L' hL) (by decide)
  · exact absurd (hc 'Q' hQ) (by decide)
  · exact exists_fraction_of_spelling hs ht

/-- A fraction is padded, a suffix dropped, and the value stays minus six. -/
theorem canonicalize_preserves_value_six :
    canonicalize .f32 "-0x1.8p+2L".toList = .ok "-0x1.800000p+2".toList ∧
      (∃ v, Value.ofText? "-0x1.800000p+2".toList = some v ∧
        Value.ofText? "-0x1.8p+2L".toList = some v) ∧
      Value.ofText? "-0x1.8p+2L".toList = some (.finite true 6) :=
  ⟨rfl, (canonicalize_preserves_value (f := .f32) rfl).1, by decide +kernel⟩

end Literal
end FloatCases
