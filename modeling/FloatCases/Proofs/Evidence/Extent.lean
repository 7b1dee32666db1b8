import FloatCases.Proofs.Evidence.Delimiters

/-!
How far a numeral extends, as it can be cut from its text: the fraction, the size of the exponent
and the suffix. Main statement: for every text of the shape of a numeral these are the parts of the
numeral, and an exponent that is too large for its type counts as the largest one, so a numeral is
too wide for single precision if its fraction or its exponent is, whatever the number of digits.
-/
namespace FloatCases

variable {c : Char} {a b s : Text} {m : Mantissa} {e : Scale} {x : Lexeme}

namespace Text

/-- The text before the first of a character and the text after it. -/
def cut? (c : Char) (s : Text) : Option (Text × Text) :=
  if c ∈ s then some (s.takeWhile (· ≠ c), (s.dropWhile (· ≠ c)).tail) else none

/-- A number with one digit more, if it does not become too large. -/
def pushDigit? (n : UInt32) (c : Char) : Option UInt32 :=
  if c.isDigit ∧ 10 * n.toNat + digitValue c < UInt32.size then
    some (.ofNat (10 * n.toNat + digitValue c))
  else none

/-- The number that is written with decimal digits, if it is not too large. -/
def toUInt32? (s : Text) : Option UInt32 :=
  if s = [] then none else s.foldlM pushDigit? 0

theorem cut?_append_cons (h : c ∉ a) (b : Text) : cut? c (a ++ c :: b) = some (a, b) := by
  have ha : ∀ d ∈ a, decide (d ≠ c) = true := fun d hd => by
    rw [decide_eq_true_eq]
    rintro rfl
    exact h hd
  have hc : Stops (· ≠ c) (c :: b) := stops_cons.mpr (by simp)
  rw [cut?, if_pos (by simp), takeWhile_run ha hc, dropWhile_run ha hc]
  rfl

theorem cut?_of_not_mem (h : c ∉ s) : cut? c s = none :=
  if_neg h

theorem le_foldl_digits (s : Text) (n : Nat) :
    n ≤ s.foldl (fun n c => 10 * n + digitValue c) n := by
  induction s generalizing n with
  | nil => exact Nat.le_refl n
  | cons c s ih =>
    have hc := ih (10 * n + digitValue c)
    rw [List.foldl_cons]
    omega

/-- Once a number is too large it stays so: it never comes back into the range. -/
theorem foldlM_pushDigit? (hs : ∀ c ∈ s, c.isDigit = true) (n : UInt32) :
    s.foldlM pushDigit? n =
      if s.foldl (fun n c => 10 * n + digitValue c) n.toNat < UInt32.size then
        some (.ofNat (s.foldl (fun n c => 10 * n + digitValue c) n.toNat))
      else none := by
  induction s generalizing n with
  | nil =>
    have hn : n.toNat < UInt32.size := n.toNat_lt
    simp [hn]
  | cons c s ih =>
    obtain ⟨hc, hs⟩ := List.forall_mem_cons.mp hs
    rw [List.foldlM_cons, List.foldl_cons]
    by_cases hlt : 10 * n.toNat + digitValue c < UInt32.size
    · have hm : (UInt32.ofNat (10 * n.toNat + digitValue c)).toNat = 10 * n.toNat + digitValue c :=
        UInt32.toNat_ofNat_of_lt' hlt
      rw [pushDigit?, if_pos ⟨hc, hlt⟩, Option.bind_eq_bind, Option.bind_some, ih hs, hm]
    · have hle := le_foldl_digits s (10 * n.toNat + digitValue c)
      rw [pushDigit?, if_neg fun h => hlt h.2, if_neg (by omega)]
      rfl

/-- Digits are read as their number, or not at all. -/
theorem toUInt32?_eq (hne : s ≠ []) (hs : ∀ c ∈ s, c.isDigit = true) :
    toUInt32? s =
      if number 10 s < UInt32.size then some (.ofNat (number 10 s)) else none := by
  rw [toUInt32?, if_neg hne, foldlM_pushDigit? hs]
  rfl

theorem byteSize_of_isHexDigit (hs : ∀ c ∈ s, Grammar.isHexDigit c = true) :
    byteSize s = s.length := by
  induction s with
  | nil => rfl
  | cons c s ih =>
    obtain ⟨hc, hs⟩ := List.forall_mem_cons.mp hs
    have hn := Lexeme.toNat_of_isNumeralChar (Lexeme.isNumeralChar_of_isHexDigit hc)
    have h1 : c.utf8Size = 1 := by
      rw [Char.utf8Size_eq_one_iff, UInt32.le_iff_toNat_le]
      exact Nat.le_trans hn.2 (by decide)
    rw [byteSize, ih hs, h1, List.length_cons, Nat.add_comm]

end Text

/-- What of a numeral tells how wide a format it asks for. -/
structure Extent where
  fraction : Text
  /-- The size of the exponent, or the largest number where it is too large. -/
  exponent : UInt32
  suffix : Option Char
  deriving DecidableEq, Repr

namespace Extent

/-- The digits behind the point of a mantissa, if it has one. -/
def fractionOf (mantissa : Text) : Text :=
  ((Text.cut? '.' mantissa).map Prod.snd).getD []

/-- The suffix at the end of what stands behind the `p`. -/
def suffixOf? (scale : Text) : Option Char :=
  scale.getLast?.filter (· ∈ ['L', 'Q'])

/-- What stands behind the `p`, without its suffix. -/
def unsuffixed (scale : Text) : Text :=
  if (suffixOf? scale).isSome then scale.dropLast else scale

/-- The size of the exponent behind the `p`. -/
def exponentOf (scale : Text) : UInt32 :=
  (Text.toUInt32? ((unsuffixed scale).dropWhile (· ∈ ['+', '-']))).getD (.ofNat (UInt32.size - 1))

/-- Cuts the parts of a numeral from its text. -/
def ofText? (s : Text) : Option Extent :=
  match s.dropWhile (· = '-') with
  | '0' :: 'x' :: body =>
    (Text.cut? 'p' body).map fun x => ⟨fractionOf x.1, exponentOf x.2, suffixOf? x.2⟩
  | _ => none

/-- Whether there are more than six fraction digits or the exponent is beyond 127. -/
def exceedsSingle (x : Extent) : Bool :=
  6 < Text.byteSize x.fraction || 127 < x.exponent

theorem ne_of_isHexDigit (h : Grammar.isHexDigit c = true) : c ≠ '.' ∧ c ≠ 'p' := by
  constructor <;>
  · rintro rfl
    exact absurd h (by decide)

/-- There is no `p` in a mantissa, and no point but the one before the fraction. -/
theorem not_mem_mantissa (hm : m.WellFormed) :
    'p' ∉ m.digit :: Mantissa.fractionText m.fraction ∧ '.' ≠ m.digit ∧
      '.' ∉ m.fraction.getD [] := by
  have hd := ne_of_isHexDigit (Lexeme.isHexDigit_of_isDigit hm.digit)
  cases hf : m.fraction with
  | none => simp [Mantissa.fractionText, hd.1.symm, hd.2.symm]
  | some f =>
    have hx := (hm.fraction f hf).2
    have hp : 'p' ∉ f := fun h => (ne_of_isHexDigit (hx _ h)).2 rfl
    have ht : '.' ∉ f := fun h => (ne_of_isHexDigit (hx _ h)).1 rfl
    simp [Mantissa.fractionText, hd.1.symm, hd.2.symm, hp, ht]

theorem fractionOf_mantissa (hm : m.WellFormed) :
    fractionOf (m.digit :: Mantissa.fractionText m.fraction) = m.fraction.getD [] := by
  obtain ⟨-, hd, -⟩ := not_mem_mantissa hm
  cases m.fraction with
  | none =>
    rw [fractionOf, Mantissa.fractionText, Text.cut?_of_not_mem (by simpa using hd)]
    rfl
  | some f =>
    have hc := Text.cut?_append_cons (a := [m.digit]) (by simpa using hd) f
    rw [fractionOf, Mantissa.fractionText, ← List.singleton_append, hc]
    rfl

/-- A digit is no suffix, and a suffix is the last character. -/
theorem suffixOf?_text (he : e.WellFormed) :
    suffixOf? e.text = (Suffix.text e.suffix).head? ∧
      unsuffixed e.text = e.sign.toList ++ e.digits := by
  have hs : suffixOf? e.text = (Suffix.text e.suffix).head? := by
    rw [suffixOf?, Scale.text]
    rcases e.suffix with _ | _ | _
    · obtain ⟨digits, d, hd⟩ : ∃ digits d, e.digits = digits ++ [d] :=
        (List.eq_nil_or_concat' _).resolve_left he.digits_ne_nil
      have hdigit : d.isDigit = true := he.digits d (by simp [hd])
      have hne : d ≠ 'L' ∧ d ≠ 'Q' := by
        constructor <;>
        · rintro rfl
          exact absurd hdigit (by decide)
      simp [Suffix.text, hd, hne]
    · simp [Suffix.text]
    · simp [Suffix.text]
  refine ⟨hs, ?_⟩
  rw [unsuffixed, hs, Scale.text]
  rcases e.suffix with _ | _ | _ <;> simp [Suffix.text]

/-- The size of an exponent is that of its digits, without the sign. -/
theorem exponentOf_text (he : e.WellFormed) :
    (exponentOf e.text).toNat = min (Text.number 10 e.digits) (UInt32.size - 1) := by
  have hsign : ∀ c ∈ e.sign.toList, decide (c ∈ ['+', '-']) = true := by
    intro c hc
    simpa using he.sign c (by simpa using hc)
  have hdigits : Text.Stops (· ∈ ['+', '-']) e.digits := by
    intro c hc
    have hd := he.digits c (List.mem_of_mem_head? hc)
    rw [decide_eq_false_iff_not]
    intro hm
    rcases List.mem_pair.mp hm with rfl | rfl <;> exact absurd hd (by decide)
  rw [exponentOf, (suffixOf?_text he).2, Text.dropWhile_run hsign hdigits,
    Text.toUInt32?_eq he.digits_ne_nil he.digits]
  split
  · rename_i hlt
    rw [Option.getD_some, UInt32.toNat_ofNat_of_lt' hlt]
    omega
  · rename_i hle
    rw [Option.getD_none, UInt32.toNat_ofNat_of_lt' (by decide)]
    omega

/-- The parts that are cut from the written form of a numeral. -/
theorem ofText?_text (hx : x.WellFormed) :
    ofText? x.text =
      some ⟨x.fraction, exponentOf x.scale.text, (Suffix.text x.scale.suffix).head?⟩ := by
  obtain ⟨m, e⟩ := x
  obtain ⟨hp, -, -⟩ := not_mem_mantissa hx.mantissa
  have hsign : ∀ c ∈ Literal.sign m.negative, decide (c = '-') = true := by
    intro c hc
    cases hn : m.negative <;> simp_all [Literal.sign]
  have hbody : (Lexeme.text ⟨m, e⟩).dropWhile (· = '-') =
      '0' :: 'x' :: ((m.digit :: Mantissa.fractionText m.fraction) ++ 'p' :: e.text) := by
    have ht : Lexeme.text ⟨m, e⟩ = Literal.sign m.negative ++
        '0' :: 'x' :: ((m.digit :: Mantissa.fractionText m.fraction) ++ 'p' :: e.text) := by
      simp [Lexeme.text, Mantissa.text]
    rw [ht, Text.dropWhile_run hsign (Text.stops_cons.mpr (by decide))]
  rw [ofText?, hbody]
  simp only [Text.cut?_append_cons hp, Option.map_some, fractionOf_mantissa hx.mantissa,
    (suffixOf?_text hx.scale).1]
  rfl

theorem exceedsSingle_iff {y : Extent} (hf : ∀ c ∈ y.fraction, Grammar.isHexDigit c = true) :
    y.exceedsSingle = true ↔ 6 < y.fraction.length ∨ 127 < y.exponent.toNat := by
  rw [exceedsSingle, Bool.or_eq_true, decide_eq_true_eq, decide_eq_true_eq,
    Text.byteSize_of_isHexDigit hf, UInt32.lt_iff_toNat_lt]
  rfl

theorem isHexDigit_of_mem_fraction (hx : x.WellFormed) :
    ∀ c ∈ x.fraction, Grammar.isHexDigit c = true := by
  rw [Lexeme.fraction]
  cases hf : x.mantissa.fraction with
  | none => simp
  | some f => exact (hx.mantissa.fraction f hf).2

/--
A text of the shape of a numeral is one numeral for the scan, and its fraction, its suffix and the
size of its exponent are cut from it, the size being the number that the digits stand for or the
largest one of 32 bits. It is too wide for single precision if it has more than six fraction digits
or that number is beyond 127. The scan goes by the same parts.
-/
theorem extent_of_numeral (hs : s ∈ Shape.numeral.matches') :
    ∃ x : Lexeme, x.WellFormed ∧ x.text = s ∧ Lexeme.scan s = [x] ∧
      ∃ y : Extent, ofText? s = some y ∧
        y.fraction = x.fraction ∧
        y.suffix = (Suffix.text x.scale.suffix).head? ∧
        y.exponent.toNat = (if Text.number 10 x.scale.digits ≤ 2 ^ 32 - 1 then
          Text.number 10 x.scale.digits else 2 ^ 32 - 1) ∧
        (y.exceedsSingle = true ↔
          6 < y.fraction.length ∨ 127 < Text.number 10 x.scale.digits) ∧
        y.exponent.toNat = x.scale.magnitude ∧ y.exceedsSingle = x.exceedsSingle := by
  obtain ⟨x, hx, rfl⟩ := Shape.mem_matches_numeral.mp hs
  have hexp := exponentOf_text hx.scale
  have hsize : UInt32.size - 1 = 2 ^ 32 - 1 := rfl
  have hmag : (exponentOf x.scale.text).toNat = x.scale.magnitude := by
    rw [hexp, Scale.magnitude_eq hx.scale]
    rfl
  have hlarge : 127 < (exponentOf x.scale.text).toNat ↔ 127 < Text.number 10 x.scale.digits := by
    omega
  refine ⟨x, hx, rfl, Lexeme.scan_text hx, _, ofText?_text hx, rfl, rfl, ?_, ?_, hmag, ?_⟩
  · simp only [hexp, hsize]
    split <;> omega
  · rw [exceedsSingle_iff (isHexDigit_of_mem_fraction hx), hlarge]
  · rw [Bool.eq_iff_iff, exceedsSingle_iff (isHexDigit_of_mem_fraction hx), hmag]
    simp [Lexeme.exceedsSingle]

/-- An exponent that is the first one too large, with zeros before it. -/
theorem extent_of_numeral_saturated :
    let s := "-0x1.8p-004294967296L".toList
    s ∈ Shape.numeral.matches' ∧ ∃ y : Extent, ofText? s = some y ∧ y.fraction = ['8'] ∧
      y.suffix = some 'L' ∧ y.exponent.toNat = 4294967295 ∧ y.exceedsSingle = true := by
  intro s
  let x : Lexeme := ⟨⟨true, '1', some ['8']⟩, ⟨some '-', "004294967296".toList, some .long⟩⟩
  have hx : x.WellFormed :=
    ⟨⟨rfl, by simp [x]; decide⟩, ⟨by simp [x], by simp [x], List.all_eq_true.mp rfl⟩⟩
  have hs : s ∈ Shape.numeral.matches' := Shape.mem_matches_numeral.mpr ⟨x, hx, rfl⟩
  obtain ⟨x', hx', ht, -, y, hy, hf, hsuffix, he, hwide, -⟩ := extent_of_numeral hs
  obtain rfl : x' = x := Lexeme.text_inj hx' hx ht
  exact ⟨hs, y, hy, hf, hsuffix, he, hwide.mpr (Or.inr (by decide))⟩

end Extent
end FloatCases
