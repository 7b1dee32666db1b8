import FloatCases.Proofs.Evidence.Widest
import FloatCases.Proofs.Literal.Language

/-!
The numerals of a text by the characters around them. Main statement: at a character that cannot
stand in a numeral the scan starts anew, whatever it was in the middle of, so a numeral between two
of them is found once, and nothing is found that is no numeral.
-/
namespace FloatCases

variable {c : Char} {s : Text}

namespace Shape

/-- The part of a numeral before the `p`. -/
def mantissa : Shape :=
  minus * exactly "0x" * digit * optional (exactly "." * fraction)

/-- The part of a numeral after the `p`. -/
def scale : Shape :=
  optional (oneOf "+-") * repeated digit * suffix

/-- The texts that are found as numerals. -/
def numeral : Shape :=
  mantissa * exactly "p" * scale

theorem mem_matches_optional {p : Shape} :
    s ∈ (optional p).matches' ↔ s = [] ∨ s ∈ p.matches' :=
  Language.mem_add 1 p.matches' s

theorem mem_matches_repeated_digit :
    s ∈ (repeated digit).matches' ↔ s ≠ [] ∧ ∀ d ∈ s, d.isDigit = true := by
  rw [matches_repeated matches_digit, Pattern.mem_language_many1_char]

theorem mem_matches_optional_sign :
    s ∈ (optional (oneOf "+-")).matches' ↔
      ∃ sign : Option Char, (∀ c ∈ sign, c = '+' ∨ c = '-') ∧ s = sign.toList := by
  rw [mem_matches_optional, mem_matches_oneOf]
  constructor
  · rintro (rfl | ⟨c, hc, rfl⟩)
    · exact ⟨none, by simp, rfl⟩
    · exact ⟨some c, by simpa using hc, rfl⟩
  · rintro ⟨_ | c, hc, rfl⟩
    · exact Or.inl rfl
    · exact Or.inr ⟨c, by simpa using hc, rfl⟩

theorem mem_matches_optional_fraction :
    s ∈ (optional (exactly "." * fraction)).matches' ↔
      ∃ f : Option Text, (∀ d ∈ f, d ≠ [] ∧ ∀ c ∈ d, Grammar.isHexDigit c = true) ∧
        s = Mantissa.fractionText f := by
  simp only [mem_matches_optional, mem_matches_mul, mem_matches_exactly,
    Literal.mem_matches_fraction]
  constructor
  · rintro (rfl | ⟨_, rfl, d, hd, rfl⟩)
    · exact ⟨none, by simp, rfl⟩
    · exact ⟨some d, by simpa using hd, rfl⟩
  · rintro ⟨_ | d, hd, rfl⟩
    · exact Or.inl rfl
    · exact Or.inr ⟨_, rfl, d, hd d rfl, rfl⟩

theorem mem_matches_mantissa :
    s ∈ mantissa.matches' ↔ ∃ m : Mantissa, m.WellFormed ∧ m.text = s := by
  simp only [mantissa, mem_matches_mul, mem_matches_exactly, Literal.mem_matches_minus,
    Literal.mem_matches_digit, mem_matches_optional_fraction]
  constructor
  · rintro ⟨_, ⟨_, ⟨_, ⟨n, rfl⟩, _, rfl, rfl⟩, _, ⟨d, hd, rfl⟩, rfl⟩, _, ⟨f, hf, rfl⟩, rfl⟩
    exact ⟨⟨n, d, f⟩, ⟨hd, hf⟩, by simp [Mantissa.text]⟩
  · rintro ⟨⟨n, d, f⟩, ⟨hd, hf⟩, rfl⟩
    exact ⟨_, ⟨_, ⟨_, ⟨n, rfl⟩, _, rfl, rfl⟩, _, ⟨d, hd, rfl⟩, rfl⟩, _, ⟨f, hf, rfl⟩,
      by simp [Mantissa.text]⟩

theorem mem_matches_scale :
    s ∈ scale.matches' ↔ ∃ e : Scale, e.WellFormed ∧ e.text = s := by
  simp only [scale, mem_matches_mul, mem_matches_optional_sign, mem_matches_repeated_digit,
    Literal.mem_matches_suffix]
  constructor
  · rintro ⟨_, ⟨_, ⟨sign, hs, rfl⟩, digits, ⟨hne, hd⟩, rfl⟩, _, ⟨suffix, rfl⟩, rfl⟩
    exact ⟨⟨sign, digits, suffix⟩, ⟨hs, hne, hd⟩, rfl⟩
  · rintro ⟨⟨sign, digits, suffix⟩, ⟨hs, hne, hd⟩, rfl⟩
    exact ⟨_, ⟨_, ⟨sign, hs, rfl⟩, digits, ⟨hne, hd⟩, rfl⟩, _, ⟨suffix, rfl⟩, rfl⟩

/-- The shape of a numeral is that of the written forms. -/
theorem mem_matches_numeral :
    s ∈ numeral.matches' ↔ ∃ x : Lexeme, x.WellFormed ∧ x.text = s := by
  simp only [numeral, mem_matches_mul, mem_matches_exactly, mem_matches_mantissa,
    mem_matches_scale]
  constructor
  · rintro ⟨_, ⟨_, ⟨m, hm, rfl⟩, _, rfl, rfl⟩, _, ⟨e, he, rfl⟩, rfl⟩
    exact ⟨⟨m, e⟩, ⟨hm, he⟩, by simp [Lexeme.text]⟩
  · rintro ⟨⟨m, e⟩, ⟨hm, he⟩, rfl⟩
    exact ⟨_, ⟨_, ⟨m, hm, rfl⟩, _, rfl, rfl⟩, _, ⟨e, he, rfl⟩, by simp [Lexeme.text]⟩

end Shape

namespace Lexeme

/-- The characters that can stand in a numeral. -/
def alphabet : List Char :=
  "-+.xpLQ0123456789abcdef".toList

theorem isNumeralChar_eq_false (hc : c ∉ alphabet) : isNumeralChar c = false := by
  rw [Bool.eq_false_iff]
  intro h
  rcases Bool.or_eq_true_iff.mp h with h | h
  · exact hc (List.mem_append_right "-+.xpLQ".toList (Shape.isHexDigit_iff.mp h))
  · simp only [decide_eq_true_eq, List.mem_cons, List.not_mem_nil, or_false] at h
    rcases h with rfl | rfl | rfl | rfl | rfl | rfl | rfl <;> exact hc (by decide)

end Lexeme

namespace Inference

open Lexeme (alphabet)

/-- The numerals behind the place where the fields of a test case open, as they are written. -/
def numerals (s : Text) : List Text :=
  (evidence ("T(".toList ++ s)).map Lexeme.text

theorem numerals_eq (s : Text) : numerals s = (Lexeme.scan s).map Lexeme.text :=
  rfl

theorem numerals_append_cons (hc : c ∉ alphabet) (a b : Text) :
    numerals (a ++ c :: b) = numerals a ++ numerals b := by
  have hn := Lexeme.isNumeralChar_eq_false hc
  rw [numerals_eq, Lexeme.scan_append (Text.stops_cons.mpr hn), Lexeme.scan_cons hn,
    List.map_append, ← numerals_eq, ← numerals_eq]

theorem numerals_of_mem (hs : s ∈ Shape.numeral.matches') : numerals s = [s] := by
  obtain ⟨x, hx, rfl⟩ := Shape.mem_matches_numeral.mp hs
  rw [numerals_eq, Lexeme.scan_text hx]
  rfl

theorem mem_of_mem_numerals {t : Text} (ht : t ∈ numerals s) : t ∈ Shape.numeral.matches' := by
  obtain ⟨x, hx, rfl⟩ := List.mem_map.mp ht
  exact Shape.mem_matches_numeral.mpr ⟨x, Lexeme.wellFormed_of_mem_scan hx, rfl⟩

/--
A character that cannot stand in a numeral parts a text for the scan. A numeral alone is found as it
is written, so it is found once between two such characters, with whatever is found on either side,
and all that is found has the shape of a numeral.
-/
theorem numerals_separated :
    (∀ (a b : Text) (c : Char), c ∉ alphabet →
      numerals (a ++ c :: b) = numerals a ++ numerals b) ∧
    (∀ t ∈ Shape.numeral.matches', numerals t = [t]) ∧
    (∀ (a b : Text) (c d : Char), c ∉ alphabet → d ∉ alphabet → ∀ t ∈ Shape.numeral.matches',
      numerals (a ++ c :: (t ++ d :: b)) = numerals a ++ t :: numerals b) ∧
    ∀ s, ∀ t ∈ numerals s, t ∈ Shape.numeral.matches' := by
  refine ⟨fun a b c hc => numerals_append_cons hc a b, fun t ht => numerals_of_mem ht,
    fun a b c d hc hd t ht => ?_, fun s t ht => mem_of_mem_numerals ht⟩
  rw [numerals_append_cons hc, numerals_append_cons hd, numerals_of_mem ht]
  rfl

/-- A numeral with a space and a comma around it, between two that break off. -/
theorem numerals_separated_broken :
    numerals "0x1.8 -0x1p-3L,0x0p+".toList = ["-0x1p-3L".toList] := by
  have ht : "-0x1p-3L".toList ∈ Shape.numeral.matches' :=
    Shape.mem_matches_numeral.mpr ⟨⟨⟨true, '1', none⟩, ⟨some '-', ['3'], some .long⟩⟩,
      ⟨⟨rfl, by simp⟩, ⟨by simp, by simp, List.all_eq_true.mp rfl⟩⟩, rfl⟩
  have hs := numerals_separated.2.2.1 "0x1.8".toList "0x0p+".toList ' ' ',' (by decide) (by decide)
    _ ht
  have ha : numerals "0x1.8".toList = [] := by decide +kernel
  have hb : numerals "0x0p+".toList = [] := by decide +kernel
  rw [ha, hb] at hs
  exact hs

end Inference
end FloatCases
