import FloatCases.Proofs.Literal.Reading
import Mathlib.Computability.RegularExpressions
import Mathlib.Tactic.IntervalCases

/-!
The texts that are accepted as literals, by regular expressions, and the canonical spellings of
them, by a table. Main statement: the canonicalizer accepts the language of literals for every
format, and computes the table.
-/
namespace FloatCases

open Computability

/-- The shape of a text. -/
abbrev Shape :=
  RegularExpression Char

namespace Shape

/-- One of the characters of a text. -/
def oneOf (cs : String) : Shape :=
  (cs.toList.map .char).sum

/-- A fixed text. -/
def exactly (t : String) : Shape :=
  (t.toList.map .char).prod

/-- A shape or nothing. -/
def optional (p : Shape) : Shape :=
  1 + p

/-- A shape at least once. -/
def repeated (p : Shape) : Shape :=
  p * p.star

def minus : Shape :=
  optional (exactly "-")

def digit : Shape :=
  oneOf "0123456789"

/-- A fraction of zero, or none. -/
def point : Shape :=
  optional (exactly ".0")

def fraction : Shape :=
  repeated (oneOf "0123456789abcdef")

def exponent : Shape :=
  oneOf "+-" * repeated digit

def suffix : Shape :=
  optional (oneOf "LQ")

def special : Shape :=
  exactly "inf" + exactly "-inf" + exactly "nan"

def negativeZero : Shape :=
  exactly "-0x0" * point * exactly "p+0" * suffix

def integer : Shape :=
  minus * exactly "0x" * digit * point * exactly "p+0" * suffix

def power : Shape :=
  minus * exactly "0x1p" * exponent * suffix

def fractional : Shape :=
  minus * exactly "0x1." * fraction * exactly "p" * exponent * suffix

/-- The texts that are accepted as literals. -/
def literal : Shape :=
  special + integer + power + fractional

variable {s w : Text} {c : Char} {accepts : Char → Bool} {cs t : String} {p q : Shape}

theorem mem_matches_mul :
    s ∈ (p * q).matches' ↔ ∃ w ∈ p.matches', ∃ r ∈ q.matches', w ++ r = s :=
  Language.mem_mul

theorem mem_matches_oneOf : s ∈ (oneOf cs).matches' ↔ ∃ c ∈ cs.toList, s = [c] := by
  unfold oneOf
  induction cs.toList with
  | nil => exact ⟨fun h => h.elim, fun ⟨_, h, _⟩ => absurd h List.not_mem_nil⟩
  | cons d cs ih =>
    rw [List.map_cons, List.sum_cons, List.exists_mem_cons_iff, ← ih]
    rfl

theorem mem_matches_exactly : s ∈ (exactly t).matches' ↔ s = t.toList := by
  have h : ∀ w s : Text, s ∈ ((w.map .char).prod : Shape).matches' ↔ s = w := by
    intro w
    induction w with
    | nil => exact fun _ => Iff.rfl
    | cons c w ih =>
      intro s
      rw [List.map_cons, List.prod_cons, mem_matches_mul]
      constructor
      · rintro ⟨_, rfl, r, hr, rfl⟩
        rw [(ih r).mp hr]
        rfl
      · rintro rfl
        exact ⟨[c], rfl, w, (ih w).mpr rfl, rfl⟩
  exact h t.toList s

theorem matches_exactly (t : String) : (exactly t).matches' = (Grammar.exactly t).language :=
  Language.ext fun _ => mem_matches_exactly

/-- A class of characters is a list of them. -/
theorem matches_oneOf (h : ∀ c, accepts c = true ↔ c ∈ cs.toList) :
    (oneOf cs).matches' = (Pattern.char accepts : Pattern Rule).language := by
  refine Language.ext fun s => mem_matches_oneOf.trans ?_
  change _ ↔ ∃ c, accepts c = true ∧ s = [c]
  simp only [h]

theorem isDigit_iff : c.isDigit = true ↔ c ∈ "0123456789".toList := by
  constructor
  · intro h
    have hn : 48 ≤ c.toNat ∧ c.toNat ≤ 57 := by
      simpa [Char.isDigit, UInt32.le_iff_toNat_le] using h
    rw [← Char.ofNat_toNat c]
    obtain ⟨hl, hu⟩ := hn
    interval_cases c.toNat <;> decide
  · have h : ∀ c ∈ "0123456789".toList, c.isDigit = true := List.all_eq_true.mp rfl
    exact h c

theorem isHexDigit_iff :
    Grammar.isHexDigit c = true ↔ c ∈ "0123456789abcdef".toList := by
  constructor
  · intro h
    rcases Bool.or_eq_true_iff.mp h with h | h
    · exact List.mem_append_left "abcdef".toList (isDigit_iff.mp h)
    · have hn : 97 ≤ c.toNat ∧ c.toNat ≤ 102 := by
        simpa [Char.le_def, UInt32.le_iff_toNat_le] using h
      rw [← Char.ofNat_toNat c]
      obtain ⟨hl, hu⟩ := hn
      interval_cases c.toNat <;> decide
  · have h : ∀ c ∈ "0123456789abcdef".toList, Grammar.isHexDigit c = true :=
      List.all_eq_true.mp rfl
    exact h c

theorem matches_minus : minus.matches' = (Pattern.opt Grammar.sign).language :=
  congrArg (1 + ·) (matches_exactly "-")

theorem matches_point : point.matches' = (Pattern.opt (Grammar.exactly ".0")).language :=
  congrArg (1 + ·) (matches_exactly ".0")

theorem matches_suffix : suffix.matches' = (Pattern.opt Grammar.suffix).language := by
  refine congrArg (1 + ·) (Language.ext fun s => mem_matches_oneOf.trans ?_)
  simp [Grammar.suffix, Literal.mem_language_exactly]

theorem matches_repeated (h : p.matches' = (Pattern.char accepts : Pattern Rule).language) :
    (repeated p).matches' = (Pattern.many1 (.char accepts) : Pattern Rule).language := by
  change p.matches' * p.matches'∗ = _
  rw [h]
  rfl

theorem matches_digit : digit.matches' = (Pattern.char Char.isDigit : Pattern Rule).language :=
  matches_oneOf fun _ => isDigit_iff

theorem matches_fraction : fraction.matches' = Grammar.fraction.language :=
  matches_repeated (matches_oneOf fun _ => isHexDigit_iff)

theorem matches_exponent : exponent.matches' = Grammar.exponent.language := by
  have hs : (oneOf "+-").matches' = (Grammar.exactly "+" ||| Grammar.exactly "-").language := by
    refine Language.ext fun s => mem_matches_oneOf.trans ?_
    simp [Literal.mem_language_exactly]
  exact congrArg₂ (· * ·) hs (matches_repeated matches_digit)

theorem matches_special : special.matches' = Grammar.special.language := by
  refine Language.ext fun s => ?_
  simp only [special, RegularExpression.matches'_add, Language.mem_add, mem_matches_exactly,
    Literal.mem_language_special, Bool.exists_bool]
  rfl

theorem matches_negativeZero : negativeZero.matches' = Grammar.negativeZero.language := by
  simp only [negativeZero, RegularExpression.matches'_mul, matches_exactly, matches_point,
    matches_suffix]
  rfl

theorem matches_integer : integer.matches' = Grammar.integer.language := by
  simp only [integer, RegularExpression.matches'_mul, matches_minus, matches_exactly, matches_digit,
    matches_point, matches_suffix]
  rfl

theorem matches_power : power.matches' = Grammar.power.language := by
  simp only [power, RegularExpression.matches'_mul, matches_minus, matches_exactly,
    matches_exponent, matches_suffix]
  rfl

theorem matches_fractional : fractional.matches' = Grammar.fractional.language := by
  simp only [fractional, RegularExpression.matches'_mul, matches_minus, matches_exactly,
    matches_fraction, matches_exponent, matches_suffix]
  rfl

end Shape

namespace Literal

/--
The table of canonical spellings for a format with `w` hex digits. Where a text has two shapes, the
zero with a minus sign goes before the integer, and the integer before the power and the fraction.
-/
inductive Canonical (w : Nat) : Text → Text → Prop
  | special {s : Text} (h : s ∈ Shape.special.matches') : Canonical w s s
  | negativeZero {s : Text} (h : s ∈ Shape.negativeZero.matches') :
      Canonical w s "-0x0p+0".toList
  | integer {n d z x : Text} (hn : n ∈ Shape.minus.matches') (hd : d ∈ Shape.digit.matches')
      (hz : z ∈ Shape.point.matches') (hx : x ∈ Shape.suffix.matches')
      (h : n ++ "0x".toList ++ d ++ z ++ "p+0".toList ++ x ∉ Shape.negativeZero.matches') :
      Canonical w (n ++ "0x".toList ++ d ++ z ++ "p+0".toList ++ x) (n ++ d)
  | power {n e x : Text} (hn : n ∈ Shape.minus.matches') (he : e ∈ Shape.exponent.matches')
      (hx : x ∈ Shape.suffix.matches')
      (h : n ++ "0x1p".toList ++ e ++ x ∉ Shape.integer.matches') :
      Canonical w (n ++ "0x1p".toList ++ e ++ x) (n ++ "0x1p".toList ++ e)
  | fractional {n d e x : Text} (hn : n ∈ Shape.minus.matches') (hd : d ∈ Shape.fraction.matches')
      (he : e ∈ Shape.exponent.matches') (hx : x ∈ Shape.suffix.matches')
      (h : n ++ "0x1.".toList ++ d ++ "p".toList ++ e ++ x ∉ Shape.integer.matches') :
      Canonical w (n ++ "0x1.".toList ++ d ++ "p".toList ++ e ++ x)
        (n ++ "0x1.".toList
          ++ (if d.length + 2 ≤ w then d ++ List.replicate (w - d.length) '0' else d)
          ++ "p".toList ++ e)

variable {s t w : Text} {l : Literal} {f : FloatFormat} {negative : Bool} {digit c : Char}
  {fraction : Option Text} {digits : Text} {suffix : Option Suffix}

theorem mem_matches_minus : s ∈ Shape.minus.matches' ↔ ∃ negative, s = sign negative := by
  rw [Shape.matches_minus, mem_language_opt_sign]

theorem mem_matches_point :
    s ∈ Shape.point.matches' ↔
      ∃ fraction, IsZeroFraction fraction ∧ s = Mantissa.fractionText fraction := by
  rw [Shape.matches_point, mem_language_opt_point]

theorem mem_matches_suffix : s ∈ Shape.suffix.matches' ↔ ∃ suffix, s = Suffix.text suffix := by
  rw [Shape.matches_suffix, mem_language_opt_suffix]

theorem mem_matches_digit :
    s ∈ Shape.digit.matches' ↔ ∃ digit : Char, digit.isDigit = true ∧ s = [digit] := by
  rw [Shape.matches_digit, Pattern.mem_language_char]

theorem mem_matches_fraction :
    s ∈ Shape.fraction.matches' ↔ s ≠ [] ∧ ∀ c ∈ s, Grammar.isHexDigit c = true := by
  rw [Shape.matches_fraction, Grammar.fraction, Pattern.mem_language_token,
    Pattern.mem_language_many1_char]

theorem mem_matches_exponent :
    s ∈ Shape.exponent.matches' ↔
      ∃ c digits, (c = '+' ∨ c = '-') ∧ (digits ≠ [] ∧ ∀ d ∈ digits, d.isDigit = true) ∧
        s = c :: digits := by
  rw [Shape.matches_exponent, mem_language_exponent]

/-- An integer has the shape of a zero with a minus sign only if it is one. -/
theorem integerNumeral_mem_negativeZero_iff (hd : digit.isDigit = true)
    (hf : IsZeroFraction fraction) :
    (integerNumeral negative digit fraction suffix).text ∈ Shape.negativeZero.matches' ↔
      negative = true ∧ digit = '0' := by
  rw [Shape.matches_negativeZero]
  constructor
  · intro h
    by_contra hz
    exact notMem_negativeZero (integerNumeral_wellFormed negative suffix hd hf) hz h
  · rintro ⟨rfl, rfl⟩
    exact mem_language_negativeZero.mpr ⟨fraction, suffix, hf, rfl⟩

/-- A scaled numeral has the shape of an integer only for a zero fraction and exponent. -/
theorem scaledNumeral_mem_integer_iff
    (hx : (scaledNumeral negative fraction c digits suffix).WellFormed) :
    (scaledNumeral negative fraction c digits suffix).text ∈ Shape.integer.matches' ↔
      IsZeroFraction fraction ∧ c :: digits = "+0".toList := by
  rw [Shape.matches_integer]
  constructor
  · intro h
    by_contra hz
    refine notMem_integer hx ?_ h
    rintro ⟨hf, hs, rfl⟩
    exact hz ⟨hf, by cases hs; rfl⟩
  · rintro ⟨hf, hc⟩
    obtain ⟨rfl, rfl⟩ := List.cons.inj hc
    exact mem_language_integer.mpr ⟨negative, '1', fraction, suffix, by decide, hf, rfl⟩

/-- The language of literals is that of the texts that spell one. -/
theorem mem_matches_literal : s ∈ Shape.literal.matches' ↔ ∃ l, Spells s l := by
  simp only [Shape.literal, RegularExpression.matches'_add, Language.mem_add,
    Shape.matches_special, Shape.matches_integer, Shape.matches_power, Shape.matches_fractional]
  constructor
  · rintro (((h | h) | h) | h)
    · exact exists_spells_of_special h
    · obtain ⟨negative, digit, fraction, suffix, hd, hf, rfl⟩ := mem_language_integer.mp h
      exact exists_spells_of_integer hd hf
    · obtain ⟨negative, c, digits, suffix, hx, rfl⟩ := mem_language_power.mp h
      exact exists_spells_of_power hx
    · obtain ⟨negative, f, c, digits, suffix, hx, rfl⟩ := mem_language_fractional.mp h
      exact exists_spells_of_fractional hx
  · rintro ⟨l, h⟩
    cases h with
    | infinity negative =>
      exact Or.inl (Or.inl (Or.inl (mem_language_special.mpr (Or.inl ⟨negative, rfl⟩))))
    | notANumber => exact Or.inl (Or.inl (Or.inl (mem_language_special.mpr (Or.inr rfl))))
    | negativeZero suffix hf =>
      refine Or.inl (Or.inl (Or.inr ?_))
      exact mem_language_integer.mpr ⟨_, _, _, suffix, by decide, hf, rfl⟩
    | integer suffix hd hf hz =>
      refine Or.inl (Or.inl (Or.inr ?_))
      exact mem_language_integer.mpr ⟨_, _, _, suffix, hd, hf, rfl⟩
    | power hx hz => exact Or.inl (Or.inr (mem_language_power.mpr ⟨_, _, _, _, hx, rfl⟩))
    | fractional hx hz => exact Or.inr (mem_language_fractional.mpr ⟨_, _, _, _, _, hx, rfl⟩)

theorem append_integer_eq :
    sign negative ++ "0x".toList ++ [digit] ++ Mantissa.fractionText fraction ++ "p+0".toList
      ++ Suffix.text suffix = (integerNumeral negative digit fraction suffix).text := by
  simp only [integerNumeral_text, List.append_assoc]

theorem append_power_eq :
    sign negative ++ "0x1p".toList ++ c :: digits ++ Suffix.text suffix =
      (scaledNumeral negative none c digits suffix).text := by
  simp only [scaledNumeral_text_none, List.append_assoc]

theorem append_fractional_eq :
    sign negative ++ "0x1.".toList ++ s ++ "p".toList ++ c :: digits ++ Suffix.text suffix =
      (scaledNumeral negative (some s) c digits suffix).text := by
  simp only [scaledNumeral_text_some, List.append_assoc]

/-- The spelling of a literal that a text spells is in the table. -/
theorem canonical_of_spells (h : Spells s l) (f : FloatFormat) :
    Canonical f.hexDigits s (l.spelling f) := by
  cases h with
  | infinity negative =>
    refine .special ?_
    rw [Shape.matches_special]
    exact mem_language_special.mpr (Or.inl ⟨negative, rfl⟩)
  | notANumber =>
    refine .special ?_
    rw [Shape.matches_special]
    exact mem_language_special.mpr (Or.inr rfl)
  | negativeZero suffix hf =>
    exact .negativeZero ((integerNumeral_mem_negativeZero_iff (by decide) hf).mpr ⟨rfl, rfl⟩)
  | @integer negative digit fraction suffix hd hf hz =>
    have hn : (integerNumeral negative digit fraction suffix).text ∉ Shape.negativeZero.matches' :=
      mt (integerNumeral_mem_negativeZero_iff hd hf).mp hz
    rw [← append_integer_eq] at hn ⊢
    exact .integer (mem_matches_minus.mpr ⟨_, rfl⟩) (mem_matches_digit.mpr ⟨_, hd, rfl⟩)
      (mem_matches_point.mpr ⟨_, hf, rfl⟩) (mem_matches_suffix.mpr ⟨_, rfl⟩) hn
  | @power negative c digits suffix hx hz =>
    obtain ⟨-, hc, hd⟩ := scaledNumeral_wellFormed.mp hx
    have hn := mt (scaledNumeral_mem_integer_iff hx).mp fun h => hz h.2
    rw [← append_power_eq] at hn ⊢
    exact .power (mem_matches_minus.mpr ⟨_, rfl⟩) (mem_matches_exponent.mpr ⟨_, _, hc, hd, rfl⟩)
      (mem_matches_suffix.mpr ⟨_, rfl⟩) hn
  | @fractional negative d c digits suffix hx hz =>
    obtain ⟨hf, hc, hd⟩ := scaledNumeral_wellFormed.mp hx
    have hn := mt (scaledNumeral_mem_integer_iff hx).mp fun h =>
      hz ⟨by simpa [IsZeroFraction] using h.1, h.2⟩
    rw [← append_fractional_eq] at hn ⊢
    have hp : (fractional negative d (c :: digits)).spelling f = sign negative ++ "0x1.".toList
        ++ (if d.length + 2 ≤ f.hexDigits then d ++ List.replicate (f.hexDigits - d.length) '0'
          else d) ++ "p".toList ++ c :: digits := by
      simp [spelling_of_fractional, padFraction, List.rightpad]
    rw [hp]
    exact .fractional (mem_matches_minus.mpr ⟨_, rfl⟩) (mem_matches_fraction.mpr (hf d rfl))
      (mem_matches_exponent.mpr ⟨_, _, hc, hd, rfl⟩) (mem_matches_suffix.mpr ⟨_, rfl⟩) hn

/-- A text in the table spells a literal that is spelled as the table says. -/
theorem exists_spells_of_canonical (h : Canonical f.hexDigits s t) :
    ∃ l, Spells s l ∧ l.spelling f = t := by
  cases h with
  | special h =>
    rw [Shape.matches_special] at h
    rcases mem_language_special.mp h with ⟨negative, rfl⟩ | rfl
    · exact ⟨_, .infinity negative, rfl⟩
    · exact ⟨_, .notANumber, rfl⟩
  | negativeZero h =>
    rw [Shape.matches_negativeZero] at h
    obtain ⟨fraction, suffix, hf, rfl⟩ := mem_language_negativeZero.mp h
    exact ⟨_, .negativeZero suffix hf, rfl⟩
  | integer hn hd hz hx h =>
    obtain ⟨negative, rfl⟩ := mem_matches_minus.mp hn
    obtain ⟨digit, hdigit, rfl⟩ := mem_matches_digit.mp hd
    obtain ⟨fraction, hf, rfl⟩ := mem_matches_point.mp hz
    obtain ⟨suffix, rfl⟩ := mem_matches_suffix.mp hx
    rw [append_integer_eq] at h ⊢
    have hn := mt (integerNumeral_mem_negativeZero_iff hdigit hf).mpr h
    exact ⟨_, .integer suffix hdigit hf hn, rfl⟩
  | power hn he hx h =>
    obtain ⟨negative, rfl⟩ := mem_matches_minus.mp hn
    obtain ⟨c, digits, hc, hd, rfl⟩ := mem_matches_exponent.mp he
    obtain ⟨suffix, rfl⟩ := mem_matches_suffix.mp hx
    have hw : (scaledNumeral negative none c digits suffix).WellFormed :=
      scaledNumeral_wellFormed.mpr ⟨by simp, hc, hd⟩
    rw [append_power_eq] at h ⊢
    exact ⟨_, .power hw fun hz => h ((scaledNumeral_mem_integer_iff hw).mpr ⟨Or.inl rfl, hz⟩), rfl⟩
  | @fractional _ d _ _ hn hf he hx h =>
    obtain ⟨negative, rfl⟩ := mem_matches_minus.mp hn
    obtain ⟨c, digits, hc, hd, rfl⟩ := mem_matches_exponent.mp he
    obtain ⟨suffix, rfl⟩ := mem_matches_suffix.mp hx
    have hw : (scaledNumeral negative (some d) c digits suffix).WellFormed :=
      scaledNumeral_wellFormed.mpr ⟨by rintro _ ⟨⟩; exact mem_matches_fraction.mp hf, hc, hd⟩
    rw [append_fractional_eq] at h ⊢
    refine ⟨_, .fractional hw fun hz => h ((scaledNumeral_mem_integer_iff hw).mpr
      ⟨Or.inr (congrArg some hz.1), hz.2⟩), ?_⟩
    simp [spelling_of_fractional, padFraction, List.rightpad]

/--
For every format the texts of the language of literals are accepted, and no others. What is
accepted is spelled as the table says, and what is refused is reported as it is.
-/
theorem canonicalize_language (f : FloatFormat) (s : Text) :
    ((∃ t, canonicalize f s = .ok t) ↔ s ∈ Shape.literal.matches') ∧
    (∀ t, canonicalize f s = .ok t ↔ Canonical f.hexDigits s t) ∧
    ∀ e, canonicalize f s = .error e ↔ s ∉ Shape.literal.matches' ∧ e = ⟨s⟩ := by
  have hl : (∃ l, read? s = some l) ↔ s ∈ Shape.literal.matches' := by
    simp only [mem_matches_literal, read?_eq_some_iff]
  refine ⟨?_, fun t => ?_, fun e => ?_⟩
  · rw [← hl]
    simp only [canonicalize_eq_ok_iff]
    exact ⟨fun ⟨_, l, h, _⟩ => ⟨l, h⟩, fun ⟨l, h⟩ => ⟨_, l, h, rfl⟩⟩
  · rw [canonicalize_eq_ok_iff]
    constructor
    · rintro ⟨l, h, rfl⟩
      exact canonical_of_spells (read?_eq_some_iff.mp h) f
    · intro h
      obtain ⟨l, hs, ht⟩ := exists_spells_of_canonical h
      exact ⟨l, read?_eq_some_iff.mpr hs, ht⟩
  · rw [canonicalize_eq_error_iff, ← hl, Option.eq_none_iff_forall_ne_some, not_exists]

/-- A one with a zero fraction is an integer, and a longer name of infinity is no literal. -/
theorem canonicalize_language_one :
    canonicalize .f32 "0x1.0p+0L".toList = .ok "1".toList ∧
      ∀ f, canonicalize f "infinity".toList = .error ⟨"infinity".toList⟩ := by
  refine ⟨?_, fun f => ?_⟩
  · exact ((canonicalize_language .f32 _).2.1 _).mpr
      (.integer (n := []) (d := ['1']) (z := ".0".toList) (x := ['L']) (by decide) (by decide)
        (by decide) (by decide) (by decide))
  · exact ((canonicalize_language f _).2.2 _).mpr ⟨by decide, rfl⟩

end Literal
end FloatCases
