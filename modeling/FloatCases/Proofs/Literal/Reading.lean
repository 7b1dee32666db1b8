import FloatCases.Literal
import FloatCases.Proofs.Evidence.Numeral
import FloatCases.Proofs.Grammar.Matching

/-!
The texts that spell literals. Main statement: a text is read as a literal exactly if it spells it,
where an earlier shape goes before a later one that has the same text.
-/
namespace FloatCases.Literal

open Grammar (isHexDigit)

/-- A fraction of zero, or none. -/
def IsZeroFraction (fraction : Option Text) : Prop :=
  fraction = none ∨ fraction = some ['0']

/-- The numeral of a one-digit integer. -/
def integerNumeral (negative : Bool) (digit : Char) (fraction : Option Text)
    (suffix : Option Suffix) : Lexeme :=
  ⟨⟨negative, digit, fraction⟩, ⟨some '+', ['0'], suffix⟩⟩

/-- The numeral of a one, with a fraction or without, times a power of two. -/
def scaledNumeral (negative : Bool) (fraction : Option Text) (c : Char) (digits : Text)
    (suffix : Option Suffix) : Lexeme :=
  ⟨⟨negative, '1', fraction⟩, ⟨some c, digits, suffix⟩⟩

/-- A text spells a literal, where the shapes of two literals share no text. -/
inductive Spells : Text → Literal → Prop
  | infinity (negative : Bool) : Spells (sign negative ++ "inf".toList) (.infinity negative)
  | notANumber : Spells "nan".toList .notANumber
  | negativeZero {fraction : Option Text} (suffix : Option Suffix) (hf : IsZeroFraction fraction) :
      Spells (integerNumeral true '0' fraction suffix).text .negativeZero
  | integer {negative : Bool} {digit : Char} {fraction : Option Text} (suffix : Option Suffix)
      (hd : digit.isDigit = true) (hf : IsZeroFraction fraction)
      (hz : ¬ (negative = true ∧ digit = '0')) :
      Spells (integerNumeral negative digit fraction suffix).text (.integer negative digit)
  | power {negative : Bool} {c : Char} {digits : Text} {suffix : Option Suffix}
      (hx : (scaledNumeral negative none c digits suffix).WellFormed)
      (hz : c :: digits ≠ "+0".toList) :
      Spells (scaledNumeral negative none c digits suffix).text (.power negative (c :: digits))
  | fractional {negative : Bool} {f : Text} {c : Char} {digits : Text} {suffix : Option Suffix}
      (hx : (scaledNumeral negative (some f) c digits suffix).WellFormed)
      (hz : ¬ (f = ['0'] ∧ c :: digits = "+0".toList)) :
      Spells (scaledNumeral negative (some f) c digits suffix).text
        (.fractional negative f (c :: digits))

variable {negative : Bool} {digit c : Char} {fraction : Option Text} {f digits s w r : Text}
  {suffix : Option Suffix} {l : Literal} {n : Nat}

theorem mem_language_exactly {t : String} :
    s ∈ (Grammar.exactly t).language ↔ s = t.toList :=
  Iff.rfl

theorem mem_language_special :
    s ∈ Grammar.special.language ↔
      (∃ negative, s = sign negative ++ "inf".toList) ∨ s = "nan".toList := by
  simp only [Grammar.special, Pattern.mem_language_node, Pattern.mem_language_alt,
    Pattern.mem_language_seq, Pattern.mem_language_opt, mem_language_exactly]
  constructor
  · rintro (⟨_, rfl | rfl, _, rfl, rfl⟩ | rfl)
    · exact Or.inl ⟨false, rfl⟩
    · exact Or.inl ⟨true, rfl⟩
    · exact Or.inr rfl
  · rintro (⟨negative, rfl⟩ | rfl)
    · cases negative
      · exact Or.inl ⟨[], Or.inl rfl, _, rfl, rfl⟩
      · exact Or.inl ⟨['-'], Or.inr rfl, _, rfl, rfl⟩
    · exact Or.inr rfl

theorem mem_language_opt_sign :
    s ∈ (Pattern.opt Grammar.sign).language ↔ ∃ negative, s = sign negative := by
  simp only [Grammar.sign, Pattern.mem_language_node, Pattern.mem_language_opt,
    mem_language_exactly, Bool.exists_bool]
  rfl

theorem mem_language_opt_suffix :
    s ∈ (Pattern.opt Grammar.suffix).language ↔ ∃ suffix, s = Suffix.text suffix := by
  simp only [Grammar.suffix, Pattern.mem_language_node, Pattern.mem_language_opt,
    Pattern.mem_language_alt, mem_language_exactly]
  constructor
  · rintro (rfl | rfl | rfl)
    · exact ⟨none, rfl⟩
    · exact ⟨some .long, rfl⟩
    · exact ⟨some .quad, rfl⟩
  · rintro ⟨_ | _ | _, rfl⟩
    · exact Or.inl rfl
    · exact Or.inr (Or.inl rfl)
    · exact Or.inr (Or.inr rfl)

theorem mem_language_opt_point :
    s ∈ (Pattern.opt (Grammar.exactly ".0")).language ↔
      ∃ fraction, IsZeroFraction fraction ∧ s = Mantissa.fractionText fraction := by
  simp only [Pattern.mem_language_opt, mem_language_exactly, IsZeroFraction]
  constructor
  · rintro (rfl | rfl)
    · exact ⟨none, Or.inl rfl, rfl⟩
    · exact ⟨some ['0'], Or.inr rfl, rfl⟩
  · rintro ⟨_, rfl | rfl, rfl⟩
    · exact Or.inl rfl
    · exact Or.inr rfl

theorem mem_language_exponent :
    s ∈ Grammar.exponent.language ↔
      ∃ c digits, (c = '+' ∨ c = '-') ∧ (digits ≠ [] ∧ ∀ d ∈ digits, d.isDigit = true) ∧
        s = c :: digits := by
  simp only [Grammar.exponent, Pattern.mem_language_token, Pattern.mem_language_seq,
    Pattern.mem_language_alt, mem_language_exactly, Pattern.mem_language_many1_char]
  constructor
  · rintro ⟨_, rfl | rfl, digits, hd, rfl⟩
    · exact ⟨'+', digits, Or.inl rfl, hd, rfl⟩
    · exact ⟨'-', digits, Or.inr rfl, hd, rfl⟩
  · rintro ⟨c, digits, rfl | rfl, hd, rfl⟩
    · exact ⟨_, Or.inl rfl, digits, hd, rfl⟩
    · exact ⟨_, Or.inr rfl, digits, hd, rfl⟩

theorem integerNumeral_text :
    (integerNumeral negative digit fraction suffix).text =
      sign negative ++ ("0x".toList ++ ([digit] ++ (Mantissa.fractionText fraction
        ++ ("p+0".toList ++ Suffix.text suffix)))) := by
  simp [integerNumeral, Lexeme.text, Mantissa.text, Scale.text]

theorem scaledNumeral_text_none :
    (scaledNumeral negative none c digits suffix).text =
      sign negative ++ ("0x1p".toList ++ (c :: digits ++ Suffix.text suffix)) := by
  simp [scaledNumeral, Lexeme.text, Mantissa.text, Mantissa.fractionText, Scale.text]

theorem scaledNumeral_text_some :
    (scaledNumeral negative (some f) c digits suffix).text =
      sign negative ++ ("0x1.".toList ++ (f ++ ("p".toList
        ++ (c :: digits ++ Suffix.text suffix)))) := by
  simp [scaledNumeral, Lexeme.text, Mantissa.text, Mantissa.fractionText, Scale.text]

theorem mem_language_negativeZero :
    s ∈ Grammar.negativeZero.language ↔
      ∃ fraction suffix, IsZeroFraction fraction ∧
        s = (integerNumeral true '0' fraction suffix).text := by
  simp only [Grammar.negativeZero, Pattern.mem_language_node, Pattern.mem_language_seq,
    mem_language_opt_point, mem_language_opt_suffix, mem_language_exactly]
  constructor
  · rintro ⟨_, ⟨_, ⟨_, rfl, _, ⟨fraction, hf, rfl⟩, rfl⟩, _, rfl, rfl⟩, _, ⟨suffix, rfl⟩, rfl⟩
    exact ⟨fraction, suffix, hf, by simp [integerNumeral_text, sign]⟩
  · rintro ⟨fraction, suffix, hf, rfl⟩
    exact ⟨_, ⟨_, ⟨_, rfl, _, ⟨fraction, hf, rfl⟩, rfl⟩, _, rfl, rfl⟩, _, ⟨suffix, rfl⟩,
      by simp [integerNumeral_text, sign]⟩

theorem mem_language_integer :
    s ∈ Grammar.integer.language ↔
      ∃ negative digit fraction suffix, digit.isDigit = true ∧ IsZeroFraction fraction ∧
        s = (integerNumeral negative digit fraction suffix).text := by
  simp only [Grammar.integer, Grammar.digit, Pattern.mem_language_node, Pattern.mem_language_seq,
    mem_language_opt_sign, mem_language_opt_point, mem_language_opt_suffix, mem_language_exactly,
    Pattern.mem_language_char]
  constructor
  · rintro ⟨_, ⟨_, ⟨_, ⟨_, ⟨_, ⟨negative, rfl⟩, _, rfl, rfl⟩, _, ⟨digit, hd, rfl⟩, rfl⟩, _,
      ⟨fraction, hf, rfl⟩, rfl⟩, _, rfl, rfl⟩, _, ⟨suffix, rfl⟩, rfl⟩
    exact ⟨negative, digit, fraction, suffix, hd, hf, by simp [integerNumeral_text]⟩
  · rintro ⟨negative, digit, fraction, suffix, hd, hf, rfl⟩
    exact ⟨_, ⟨_, ⟨_, ⟨_, ⟨_, ⟨negative, rfl⟩, _, rfl, rfl⟩, _, ⟨digit, hd, rfl⟩, rfl⟩, _,
      ⟨fraction, hf, rfl⟩, rfl⟩, _, rfl, rfl⟩, _, ⟨suffix, rfl⟩, by simp [integerNumeral_text]⟩

theorem scaledNumeral_wellFormed :
    (scaledNumeral negative fraction c digits suffix).WellFormed ↔
      (∀ f ∈ fraction, f ≠ [] ∧ ∀ d ∈ f, isHexDigit d = true) ∧ (c = '+' ∨ c = '-') ∧
        (digits ≠ [] ∧ ∀ d ∈ digits, d.isDigit = true) := by
  constructor
  · rintro ⟨⟨_, hf⟩, ⟨hc, hne, hd⟩⟩
    exact ⟨hf, hc c rfl, hne, hd⟩
  · rintro ⟨hf, hc, hne, hd⟩
    exact ⟨⟨rfl, hf⟩, ⟨by rintro _ ⟨⟩; exact hc, hne, hd⟩⟩

theorem mem_language_power :
    s ∈ Grammar.power.language ↔
      ∃ negative c digits suffix, (scaledNumeral negative none c digits suffix).WellFormed ∧
        s = (scaledNumeral negative none c digits suffix).text := by
  simp only [Grammar.power, Pattern.mem_language_node, Pattern.mem_language_seq,
    mem_language_opt_sign, mem_language_exponent, mem_language_opt_suffix, mem_language_exactly,
    scaledNumeral_wellFormed, scaledNumeral_text_none]
  constructor
  · rintro ⟨_, ⟨_, ⟨_, ⟨negative, rfl⟩, _, rfl, rfl⟩, _, ⟨c, digits, hc, hd, rfl⟩, rfl⟩, _,
      ⟨suffix, rfl⟩, rfl⟩
    exact ⟨negative, c, digits, suffix, ⟨by simp, hc, hd⟩, by simp⟩
  · rintro ⟨negative, c, digits, suffix, ⟨_, hc, hd⟩, rfl⟩
    exact ⟨_, ⟨_, ⟨_, ⟨negative, rfl⟩, _, rfl, rfl⟩, _, ⟨c, digits, hc, hd, rfl⟩, rfl⟩, _,
      ⟨suffix, rfl⟩, by simp⟩

theorem mem_language_fractional :
    s ∈ Grammar.fractional.language ↔
      ∃ negative f c digits suffix,
        (scaledNumeral negative (some f) c digits suffix).WellFormed ∧
          s = (scaledNumeral negative (some f) c digits suffix).text := by
  simp only [Grammar.fractional, Grammar.fraction, Pattern.mem_language_node,
    Pattern.mem_language_token, Pattern.mem_language_seq, Pattern.mem_language_many1_char,
    mem_language_opt_sign, mem_language_exponent, mem_language_opt_suffix, mem_language_exactly,
    scaledNumeral_wellFormed, scaledNumeral_text_some]
  constructor
  · rintro ⟨_, ⟨_, ⟨_, ⟨_, ⟨_, ⟨negative, rfl⟩, _, rfl, rfl⟩, f, hf, rfl⟩, _, rfl, rfl⟩, _,
      ⟨c, digits, hc, hd, rfl⟩, rfl⟩, _, ⟨suffix, rfl⟩, rfl⟩
    exact ⟨negative, f, c, digits, suffix, ⟨by rintro _ ⟨⟩; exact hf, hc, hd⟩, by simp⟩
  · rintro ⟨negative, f, c, digits, suffix, ⟨hf, hc, hd⟩, rfl⟩
    exact ⟨_, ⟨_, ⟨_, ⟨_, ⟨_, ⟨negative, rfl⟩, _, rfl, rfl⟩, f, hf f rfl, rfl⟩, _, rfl, rfl⟩, _,
      ⟨c, digits, hc, hd, rfl⟩, rfl⟩, _, ⟨suffix, rfl⟩, by simp⟩

/-- The part for a minus sign at byte `n` or for none. -/
def signTrees (n : Nat) (negative : Bool) : List (Tree Rule) :=
  if negative then [⟨.sign, n, ['-'], []⟩] else []

/-- The part for a type suffix at byte `n` or for none. -/
def suffixTrees (n : Nat) (suffix : Option Suffix) : List (Tree Rule) :=
  if suffix.isSome then [⟨.suffix, n, Suffix.text suffix, []⟩] else []

theorem matchAt_opt_sign (hr : r.head? ≠ some '-') :
    (Pattern.opt Grammar.sign).matchAt n (sign negative ++ r) =
      some ⟨sign negative, signTrees n negative, r⟩ := by
  cases negative with
  | false =>
    refine Pattern.matchAt_opt_none (Pattern.matchAt_eq_none ?_)
    rintro w r' hw rfl
    subst hw
    simp at hr
  | true => exact Pattern.matchAt_opt_some (Pattern.matchAt_node (Pattern.matchAt_text _ _ _))

theorem matchAt_opt_point (hf : IsZeroFraction fraction) (hr : r.head? ≠ some '.') :
    (Pattern.opt (Grammar.exactly ".0")).matchAt n (Mantissa.fractionText fraction ++ r) =
      some ⟨Mantissa.fractionText fraction, [], r⟩ := by
  rcases hf with rfl | rfl
  · refine Pattern.matchAt_opt_none (Pattern.matchAt_eq_none ?_)
    rintro w r' hw rfl
    subst hw
    simp at hr
  · exact Pattern.matchAt_opt_some (Pattern.matchAt_text _ _ _)

theorem matchAt_opt_suffix :
    (Pattern.opt Grammar.suffix).matchAt n (Suffix.text suffix) =
      some ⟨Suffix.text suffix, suffixTrees n suffix, []⟩ := by
  rcases suffix with _ | _ | _ <;> rfl

theorem matchAt_digit (hd : digit.isDigit = true) :
    Grammar.digit.matchAt n ([digit] ++ r) = some ⟨[digit], [⟨.digit, n, [digit], []⟩], r⟩ := by
  simp [Grammar.digit, Pattern.matchAt, hd, Match.labelled]

theorem matchAt_exponent (hc : c = '+' ∨ c = '-')
    (hd : digits ≠ [] ∧ ∀ d ∈ digits, d.isDigit = true) :
    Grammar.exponent.matchAt n (c :: digits ++ Suffix.text suffix) =
      some ⟨c :: digits, [⟨.exponent, n, c :: digits, []⟩], Suffix.text suffix⟩ := by
  have hr : Text.Stops Char.isDigit (Suffix.text suffix) := by
    have h := Lexeme.stops_suffix suffix Text.stops_nil
    rwa [List.append_nil] at h
  have hs : (Grammar.exactly "+" ||| Grammar.exactly "-").matchAt n
      (c :: digits ++ Suffix.text suffix) = some ⟨[c], [], digits ++ Suffix.text suffix⟩ := by
    rcases hc with rfl | rfl
    · exact Pattern.matchAt_alt_left (Pattern.matchAt_text _ _ _)
    · exact Pattern.matchAt_alt_right (Pattern.matchAt_text_none (by simp))
        (Pattern.matchAt_text _ _ _)
  exact Pattern.matchAt_token
    (Pattern.matchAt_skip hs (Pattern.matchAt_many1_char hd.1 hd.2 hr))

theorem matchAt_negativeZero (suffix : Option Suffix) (hf : IsZeroFraction fraction) :
    ∃ k, Grammar.negativeZero.matchAt 0 (integerNumeral true '0' fraction suffix).text =
      some ⟨(integerNumeral true '0' fraction suffix).text,
        [⟨.negativeZero, 0, (integerNumeral true '0' fraction suffix).text,
          suffixTrees k suffix⟩], []⟩ := by
  have hs : (integerNumeral true '0' fraction suffix).text =
      "-0x0".toList ++ (Mantissa.fractionText fraction
        ++ ("p+0".toList ++ Suffix.text suffix)) := by
    simp [integerNumeral_text, sign]
  rw [hs]
  apply Exists.intro
  apply Pattern.matchAt_node
  rw [Pattern.matchAt_assoc, Pattern.matchAt_assoc]
  exact Pattern.matchAt_text_append _ (Pattern.matchAt_skip
    (matchAt_opt_point hf (by simp)) (Pattern.matchAt_text_append _ matchAt_opt_suffix))

theorem matchAt_integer (negative : Bool) (suffix : Option Suffix) (hd : digit.isDigit = true)
    (hf : IsZeroFraction fraction) :
    ∃ j k, Grammar.integer.matchAt 0 (integerNumeral negative digit fraction suffix).text =
      some ⟨(integerNumeral negative digit fraction suffix).text,
        [⟨.integer, 0, (integerNumeral negative digit fraction suffix).text,
          signTrees 0 negative ++ ⟨.digit, j, [digit], []⟩ :: suffixTrees k suffix⟩], []⟩ := by
  rw [integerNumeral_text]
  apply Exists.intro
  apply Exists.intro
  apply Pattern.matchAt_node
  rw [Pattern.matchAt_assoc, Pattern.matchAt_assoc, Pattern.matchAt_assoc, Pattern.matchAt_assoc]
  exact Pattern.matchAt_seq (matchAt_opt_sign (by simp)) (Pattern.matchAt_text_append _
    (Pattern.matchAt_part (matchAt_digit hd) (Pattern.matchAt_skip
      (matchAt_opt_point hf (by simp)) (Pattern.matchAt_text_append _ matchAt_opt_suffix))))

theorem matchAt_power (hx : (scaledNumeral negative none c digits suffix).WellFormed) :
    ∃ j k, Grammar.power.matchAt 0 (scaledNumeral negative none c digits suffix).text =
      some ⟨(scaledNumeral negative none c digits suffix).text,
        [⟨.power, 0, (scaledNumeral negative none c digits suffix).text,
          signTrees 0 negative ++ ⟨.exponent, j, c :: digits, []⟩ :: suffixTrees k suffix⟩],
        []⟩ := by
  obtain ⟨-, hc, hd⟩ := scaledNumeral_wellFormed.mp hx
  rw [scaledNumeral_text_none]
  apply Exists.intro
  apply Exists.intro
  apply Pattern.matchAt_node
  rw [Pattern.matchAt_assoc, Pattern.matchAt_assoc]
  exact Pattern.matchAt_seq (matchAt_opt_sign (by simp)) (Pattern.matchAt_text_append _
    (Pattern.matchAt_part (matchAt_exponent hc hd) matchAt_opt_suffix))

theorem matchAt_fraction (hf : f ≠ [] ∧ ∀ d ∈ f, isHexDigit d = true) :
    Grammar.fraction.matchAt n (f ++ ("p".toList ++ r)) =
      some ⟨f, [⟨.fraction, n, f, []⟩], "p".toList ++ r⟩ :=
  Pattern.matchAt_token (Pattern.matchAt_many1_char hf.1 hf.2 (Text.stops_cons.mpr (by decide)))

theorem matchAt_fractional (hx : (scaledNumeral negative (some f) c digits suffix).WellFormed) :
    ∃ i j k, Grammar.fractional.matchAt 0 (scaledNumeral negative (some f) c digits suffix).text =
      some ⟨(scaledNumeral negative (some f) c digits suffix).text,
        [⟨.fractional, 0, (scaledNumeral negative (some f) c digits suffix).text,
          signTrees 0 negative ++ ⟨.fraction, i, f, []⟩ :: ⟨.exponent, j, c :: digits, []⟩
            :: suffixTrees k suffix⟩], []⟩ := by
  obtain ⟨hf, hc, hd⟩ := scaledNumeral_wellFormed.mp hx
  rw [scaledNumeral_text_some]
  apply Exists.intro
  apply Exists.intro
  apply Exists.intro
  apply Pattern.matchAt_node
  rw [Pattern.matchAt_assoc, Pattern.matchAt_assoc, Pattern.matchAt_assoc, Pattern.matchAt_assoc]
  exact Pattern.matchAt_seq (matchAt_opt_sign (by simp)) (Pattern.matchAt_text_append _
    (Pattern.matchAt_part (matchAt_fraction (hf f rfl)) (Pattern.matchAt_text_append _
      (Pattern.matchAt_part (matchAt_exponent hc hd) matchAt_opt_suffix))))

/-- The five shapes of a literal, each up to the end of the text. -/
def shapes : Pattern Rule :=
  (Grammar.special ++ Grammar.finish) ||| (Grammar.negativeZero ++ Grammar.finish)
    ||| (Grammar.integer ++ Grammar.finish) ||| (Grammar.power ++ Grammar.finish)
    ||| (Grammar.fractional ++ Grammar.finish)

variable {t : Tree Rule} {p : Pattern Rule} {x : Lexeme}

theorem matchAt_finish (h : p.matchAt 0 s = some ⟨s, [t], []⟩) :
    ∃ e, (p ++ Grammar.finish).matchAt 0 s = some ⟨s, [t, e], []⟩ := by
  have hs := Pattern.matchAt_part h (Pattern.matchAt_finish Rule.finish _)
  rw [List.append_nil] at hs
  exact ⟨_, hs⟩

theorem finish_none (h : s ∉ p.language) : (p ++ Grammar.finish).matchAt n s = none :=
  Pattern.matchAt_finish_none h

theorem read?_of_shapes {e : Tree Rule} (h : shapes.matchAt 0 s = some ⟨s, [t, e], []⟩) :
    read? s = ofTree? t := by
  have hl : Rule.literal.parse? s = some [⟨.literal, 0, s, [t, e]⟩] := by
    have hm : Grammar.literal.matchAt 0 s = some ⟨s, [⟨.literal, 0, s, [t, e]⟩], []⟩ :=
      Pattern.matchAt_node h
    simp [Rule.parse?, Pattern.parse?, Rule.pattern, hm]
  simp [read?, hl]

theorem text_notMem_special : x.text ∉ Grammar.special.language := by
  rw [mem_language_special]
  rintro (⟨negative, h⟩ | h)
  · cases hn : x.mantissa.negative <;> cases negative <;>
      simp [Lexeme.text, Mantissa.text, sign, hn] at h
  · cases hn : x.mantissa.negative <;> simp [Lexeme.text, Mantissa.text, sign, hn] at h

theorem integerNumeral_wellFormed (negative : Bool) (suffix : Option Suffix)
    (hd : digit.isDigit = true) (hf : IsZeroFraction fraction) :
    (integerNumeral negative digit fraction suffix).WellFormed := by
  refine ⟨⟨hd, ?_⟩, ⟨by rintro _ ⟨⟩; exact Or.inl rfl, List.cons_ne_nil _ _, ?_⟩⟩
  · rcases hf with rfl | rfl
    · exact fun _ h => nomatch h
    · rintro _ ⟨⟩
      exact ⟨List.cons_ne_nil _ _, List.all_eq_true.mp rfl⟩
  · simp [integerNumeral]

theorem read?_negativeZero (hf : IsZeroFraction fraction) :
    read? (integerNumeral true '0' fraction suffix).text = some .negativeZero := by
  obtain ⟨k, h⟩ := matchAt_negativeZero suffix hf
  obtain ⟨e, he⟩ := matchAt_finish h
  rw [read?_of_shapes (Pattern.matchAt_alt_left (Pattern.matchAt_alt_left (Pattern.matchAt_alt_left
    (Pattern.matchAt_alt_right (finish_none text_notMem_special) he))))]
  rfl

theorem notMem_negativeZero (hx : x.WellFormed)
    (hz : ¬ (x.mantissa.negative = true ∧ x.mantissa.digit = '0')) :
    x.text ∉ Grammar.negativeZero.language := by
  rw [mem_language_negativeZero]
  rintro ⟨fraction, suffix, hf, h⟩
  obtain rfl := Lexeme.text_inj hx (integerNumeral_wellFormed _ _ (by decide) hf) h
  exact hz ⟨rfl, rfl⟩

theorem read?_integer (hd : digit.isDigit = true) (hf : IsZeroFraction fraction)
    (hz : ¬ (negative = true ∧ digit = '0')) :
    read? (integerNumeral negative digit fraction suffix).text
      = some (.integer negative digit) := by
  obtain ⟨j, k, h⟩ := matchAt_integer negative suffix hd hf
  obtain ⟨e, he⟩ := matchAt_finish h
  have hn := notMem_negativeZero (integerNumeral_wellFormed negative suffix hd hf) hz
  rw [read?_of_shapes (Pattern.matchAt_alt_left (Pattern.matchAt_alt_left
    (Pattern.matchAt_alt_right (Pattern.matchAt_alt_none (finish_none text_notMem_special)
      (finish_none hn)) he)))]
  cases negative <;> cases suffix <;> rfl

theorem notMem_integer (hx : x.WellFormed)
    (hz : ¬ (IsZeroFraction x.mantissa.fraction ∧ x.scale.sign = some '+' ∧
      x.scale.digits = ['0'])) :
    x.text ∉ Grammar.integer.language := by
  rw [mem_language_integer]
  rintro ⟨negative, digit, fraction, suffix, hd, hf, h⟩
  obtain rfl := Lexeme.text_inj hx (integerNumeral_wellFormed _ _ hd hf) h
  exact hz ⟨hf, rfl, rfl⟩

theorem read?_power (hx : (scaledNumeral negative none c digits suffix).WellFormed)
    (hz : c :: digits ≠ "+0".toList) :
    read? (scaledNumeral negative none c digits suffix).text
      = some (.power negative (c :: digits)) := by
  obtain ⟨j, k, h⟩ := matchAt_power hx
  obtain ⟨e, he⟩ := matchAt_finish h
  have hn := notMem_negativeZero hx (by simp [scaledNumeral])
  have hi := notMem_integer hx (by rintro ⟨-, hs, rfl⟩; exact hz (by cases hs; rfl))
  rw [read?_of_shapes (Pattern.matchAt_alt_left (Pattern.matchAt_alt_right
    (Pattern.matchAt_alt_none (Pattern.matchAt_alt_none (finish_none text_notMem_special)
      (finish_none hn)) (finish_none hi)) he))]
  cases negative <;> cases suffix <;> rfl

theorem notMem_power (hx : (scaledNumeral negative (some f) c digits suffix).WellFormed) :
    (scaledNumeral negative (some f) c digits suffix).text ∉ Grammar.power.language := by
  rw [mem_language_power]
  rintro ⟨negative', c', digits', suffix', hx', h⟩
  have h := Lexeme.text_inj hx hx' h
  simp [scaledNumeral] at h

theorem read?_fractional (hx : (scaledNumeral negative (some f) c digits suffix).WellFormed)
    (hz : ¬ (f = ['0'] ∧ c :: digits = "+0".toList)) :
    read? (scaledNumeral negative (some f) c digits suffix).text
      = some (.fractional negative f (c :: digits)) := by
  obtain ⟨i, j, k, h⟩ := matchAt_fractional hx
  obtain ⟨e, he⟩ := matchAt_finish h
  have hn := notMem_negativeZero hx (by simp [scaledNumeral])
  have hi := notMem_integer hx (by
    rintro ⟨hf, hs, rfl⟩
    exact hz ⟨by simpa [IsZeroFraction, scaledNumeral] using hf, by cases hs; rfl⟩)
  rw [read?_of_shapes (Pattern.matchAt_alt_right (Pattern.matchAt_alt_none
    (Pattern.matchAt_alt_none (Pattern.matchAt_alt_none (finish_none text_notMem_special)
      (finish_none hn)) (finish_none hi)) (finish_none (notMem_power hx))) he)]
  cases negative <;> cases suffix <;> rfl

theorem exists_spells_of_special (h : s ∈ Grammar.special.language) : ∃ l, Spells s l := by
  rcases mem_language_special.mp h with ⟨negative, rfl⟩ | rfl
  · exact ⟨_, .infinity negative⟩
  · exact ⟨_, .notANumber⟩

theorem exists_spells_of_integer (hd : digit.isDigit = true) (hf : IsZeroFraction fraction) :
    ∃ l, Spells (integerNumeral negative digit fraction suffix).text l := by
  by_cases hz : negative = true ∧ digit = '0'
  · obtain ⟨rfl, rfl⟩ := hz
    exact ⟨_, .negativeZero suffix hf⟩
  · exact ⟨_, .integer suffix hd hf hz⟩

/-- A one without a fraction and with the exponent of an integer is an integer. -/
theorem exists_spells_of_power (hx : (scaledNumeral negative none c digits suffix).WellFormed) :
    ∃ l, Spells (scaledNumeral negative none c digits suffix).text l := by
  by_cases hz : c :: digits = "+0".toList
  · obtain ⟨rfl, rfl⟩ := List.cons.inj hz
    exact exists_spells_of_integer (by decide) (Or.inl rfl)
  · exact ⟨_, .power hx hz⟩

/-- A one with a zero fraction and with the exponent of an integer is an integer. -/
theorem exists_spells_of_fractional
    (hx : (scaledNumeral negative (some f) c digits suffix).WellFormed) :
    ∃ l, Spells (scaledNumeral negative (some f) c digits suffix).text l := by
  by_cases hz : f = ['0'] ∧ c :: digits = "+0".toList
  · obtain ⟨rfl, hz⟩ := hz
    obtain ⟨rfl, rfl⟩ := List.cons.inj hz
    exact exists_spells_of_integer (by decide) (Or.inr rfl)
  · exact ⟨_, .fractional hx hz⟩

/-- A text in none of the five shapes is not read. -/
theorem read?_eq_none (h₁ : s ∉ Grammar.special.language)
    (h₂ : s ∉ Grammar.negativeZero.language) (h₃ : s ∉ Grammar.integer.language)
    (h₄ : s ∉ Grammar.power.language) (h₅ : s ∉ Grammar.fractional.language) :
    read? s = none := by
  have hm : shapes.matchAt 0 s = none :=
    Pattern.matchAt_alt_none (Pattern.matchAt_alt_none (Pattern.matchAt_alt_none
      (Pattern.matchAt_alt_none (finish_none h₁) (finish_none h₂)) (finish_none h₃))
      (finish_none h₄)) (finish_none h₅)
  have hl : Rule.literal.parse? s = none := by
    change ((Pattern.node Rule.literal shapes).matchAt 0 s).map _ = none
    simp [Pattern.matchAt, hm]
  simp [read?, hl]

theorem exists_spells_of_read? (h : read? s = some l) : ∃ l', Spells s l' := by
  by_cases h₁ : s ∈ Grammar.special.language
  · exact exists_spells_of_special h₁
  by_cases h₂ : s ∈ Grammar.negativeZero.language
  · obtain ⟨fraction, suffix, hf, rfl⟩ := mem_language_negativeZero.mp h₂
    exact ⟨_, .negativeZero suffix hf⟩
  by_cases h₃ : s ∈ Grammar.integer.language
  · obtain ⟨negative, digit, fraction, suffix, hd, hf, rfl⟩ := mem_language_integer.mp h₃
    exact exists_spells_of_integer hd hf
  by_cases h₄ : s ∈ Grammar.power.language
  · obtain ⟨negative, c, digits, suffix, hx, rfl⟩ := mem_language_power.mp h₄
    exact exists_spells_of_power hx
  by_cases h₅ : s ∈ Grammar.fractional.language
  · obtain ⟨negative, f, c, digits, suffix, hx, rfl⟩ := mem_language_fractional.mp h₅
    exact exists_spells_of_fractional hx
  · rw [read?_eq_none h₁ h₂ h₃ h₄ h₅] at h
    exact absurd h (by simp)

theorem read?_of_spells (h : Spells s l) : read? s = some l := by
  cases h with
  | infinity negative => cases negative <;> rfl
  | notANumber => rfl
  | negativeZero suffix hf => exact read?_negativeZero hf
  | integer suffix hd hf hz => exact read?_integer hd hf hz
  | power hx hz => exact read?_power hx hz
  | fractional hx hz => exact read?_fractional hx hz

/-- A text is read as a literal exactly if it spells it. -/
theorem read?_eq_some_iff : read? s = some l ↔ Spells s l := by
  constructor
  · intro h
    obtain ⟨l', h'⟩ := exists_spells_of_read? h
    rwa [Option.some.inj (h.symm.trans (read?_of_spells h'))]
  · exact read?_of_spells

end FloatCases.Literal
