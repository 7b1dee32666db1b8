import FloatCases.Proofs.Literal.Value
import Mathlib.Logic.Function.Basic

/-!
The spellings of a literal for several formats. Main statements: for a wider format a spelling has
the same fraction with zeros after it; spelling for one format after another gives the spelling for
the widest of them, unless a decimal digit is reached, which is no literal any more.
-/
namespace FloatCases

namespace FloatFormat

variable {f g : FloatFormat} {fs : List FloatFormat}

theorem hexDigits_wider (f g : FloatFormat) :
    (f.wider g).hexDigits = max f.hexDigits g.hexDigits := by
  cases f <;> cases g <;> rfl

theorem hexDigits_injective : Function.Injective hexDigits := by
  intro f g h
  cases f <;> cases g <;> first | rfl | exact absurd h (by decide)

/-- No format has just one hex digit more than another. -/
theorem hexDigits_ne_succ (f g : FloatFormat) : g.hexDigits ≠ f.hexDigits + 1 := by
  cases f <;> cases g <;> decide

/-- A format of a list with the most hex digits among them. -/
def IsWidestOf (g : FloatFormat) (fs : List FloatFormat) : Prop :=
  g ∈ fs ∧ ∀ h ∈ fs, h.hexDigits ≤ g.hexDigits

theorem IsWidestOf.unique (hf : IsWidestOf f fs) (hg : IsWidestOf g fs) : f = g :=
  hexDigits_injective (Nat.le_antisymm (hg.2 f hf.1) (hf.2 g hg.1))

theorem wider_eq (f g : FloatFormat) : f.wider g = f ∨ f.wider g = g := by
  unfold wider
  split
  · exact Or.inr rfl
  · exact Or.inl rfl

/-- The widest of some formats is found by going through them. -/
theorem isWidestOf_foldl (f : FloatFormat) (fs : List FloatFormat) :
    IsWidestOf (fs.foldl wider f) (f :: fs) := by
  induction fs generalizing f with
  | nil => exact ⟨List.mem_singleton_self f, fun h hh => by rw [List.mem_singleton.mp hh]; rfl⟩
  | cons g fs ih =>
    obtain ⟨hm, hw⟩ := ih (f.wider g)
    have hfg := hw _ List.mem_cons_self
    rw [hexDigits_wider] at hfg
    rw [List.foldl_cons]
    refine ⟨?_, ?_⟩
    · rcases List.mem_cons.mp hm with h | h
      · rw [h]
        rcases wider_eq f g with h | h <;> simp [h]
      · exact List.mem_cons_of_mem f (List.mem_cons_of_mem g h)
    · intro h hh
      rcases List.mem_cons.mp hh with rfl | hh
      · omega
      rcases List.mem_cons.mp hh with rfl | hh
      · omega
      · exact hw h (List.mem_cons_of_mem _ hh)

end FloatFormat

namespace Literal

variable {f g : FloatFormat} {fs : List FloatFormat} {s t : Text} {l : Literal} {negative : Bool}
  {digit : Char} {n m k : Nat}

/-- The number of zeros that a fraction of `k` digits is padded with. -/
def missing (n k : Nat) : Nat :=
  if k + 2 ≤ n then n - k else 0

theorem padFraction_eq (n : Nat) (s : Text) :
    padFraction n s = s ++ List.replicate (missing n s.length) '0' := by
  unfold padFraction missing
  split
  · rfl
  · rw [List.replicate_zero, List.append_nil]

theorem missing_mono (h : n ≤ m) (k : Nat) : missing n k ≤ missing m k := by
  unfold missing
  split_ifs <;> omega

/-- With just one digit more than before, a second padding would not be made any more. -/
theorem missing_add_missing (h : m ≠ n + 1) (k : Nat) :
    missing n k + missing m (k + missing n k) = missing (max n m) k := by
  unfold missing
  split_ifs <;> omega

theorem padFraction_padFraction (h : m ≠ n + 1) (s : Text) :
    padFraction m (padFraction n s) = padFraction (max n m) s := by
  rw [padFraction_eq m, padFraction_eq n, padFraction_eq (max n m), List.length_append,
    List.length_replicate, List.append_assoc, List.replicate_append_replicate,
    missing_add_missing h]

/-- The padding of a fraction does not make it a single zero. -/
theorem eq_zero_of_padFraction (h : padFraction n s = ['0']) : s = ['0'] := by
  have hl := congrArg List.length h
  rw [padFraction_eq, List.length_append, List.length_replicate, List.length_singleton] at hl
  have hm : missing n s.length = 0 := by
    unfold missing at hl ⊢
    split_ifs at hl ⊢ <;> omega
  rwa [padFraction_eq, hm, List.replicate_zero, List.append_nil] at h

/-- A literal with its fraction padded for a format. -/
def pad (f : FloatFormat) : Literal → Literal
  | fractional negative fraction exponent =>
    fractional negative (padFraction f.hexDigits fraction) exponent
  | l => l

theorem spelling_pad (f g : FloatFormat) (l : Literal) :
    (l.pad f).spelling g = l.spelling (f.wider g) := by
  cases l with
  | fractional negative fraction exponent =>
    rw [pad, spelling_of_fractional, spelling_of_fractional, FloatFormat.hexDigits_wider,
      padFraction_padFraction (FloatFormat.hexDigits_ne_succ f g)]
  | _ => rfl

/-- The same spelling, or the same fraction with zeros after it. -/
def Widened (t u : Text) : Prop :=
  u = t ∨ ∃ negative fraction c digits k,
    (fraction ≠ [] ∧ ∀ d ∈ fraction, Grammar.isHexDigit d = true) ∧
    (c = '+' ∨ c = '-') ∧ (digits ≠ [] ∧ ∀ d ∈ digits, d.isDigit = true) ∧
    t = sign negative ++ "0x1.".toList ++ fraction ++ 'p' :: c :: digits ∧
    u = sign negative ++ "0x1.".toList ++ (fraction ++ List.replicate k '0') ++ 'p' :: c :: digits

theorem exists_padFraction_eq_append (h : n ≤ m) (s : Text) :
    ∃ k, padFraction m s = padFraction n s ++ List.replicate k '0' := by
  refine ⟨missing m s.length - missing n s.length, ?_⟩
  have hk := missing_mono h s.length
  rw [padFraction_eq, padFraction_eq, List.append_assoc, List.replicate_append_replicate]
  congr 2
  omega

/-- For a format with more hex digits a literal has more zeros at the end of its fraction. -/
theorem widened_spelling (h : Spells s l) (hfg : f.hexDigits ≤ g.hexDigits) :
    Widened (l.spelling f) (l.spelling g) := by
  cases h with
  | @fractional negative fraction c digits suffix hx hz =>
    obtain ⟨k, hk⟩ := exists_padFraction_eq_append hfg fraction
    obtain ⟨hf, hc, hd⟩ :=
      scaledNumeral_wellFormed.mp (scaledNumeral_wellFormed_pad hx f.hexDigits)
    refine Or.inr ⟨negative, _, c, digits, k, hf _ rfl, hc, hd, rfl, ?_⟩
    rw [spelling_of_fractional, hk]
  | _ => exact Or.inl rfl

/-- A decimal digit, with a minus sign or without. -/
def IsDigitForm (t : Text) : Prop :=
  ∃ negative, ∃ digit : Char, digit.isDigit = true ∧ t = sign negative ++ [digit]

theorem IsDigitForm.length_le (h : IsDigitForm t) : t.length ≤ 2 := by
  obtain ⟨negative, digit, -, rfl⟩ := h
  cases negative <;> simp [sign]

theorem two_lt_length_of_spells (h : Spells s l) : 2 < s.length := by
  have hx : ∀ x : Lexeme, 2 < x.text.length := by
    intro x
    simp only [Lexeme.text, Mantissa.text, List.length_append, List.length_cons]
    omega
  cases h with
  | infinity negative => simp
  | notANumber => decide
  | negativeZero suffix hf => exact hx _
  | integer suffix hd hf hz => exact hx _
  | power hp hz => exact hx _
  | fractional hp hz => exact hx _

/-- A decimal digit is no literal. -/
theorem read?_of_isDigitForm (h : IsDigitForm t) : read? t = none := by
  rw [Option.eq_none_iff_forall_ne_some]
  intro l hl
  have hlen := two_lt_length_of_spells (read?_eq_some_iff.mp hl)
  have hle := h.length_le
  omega

/-- A canonical spelling is a decimal digit or spells the literal with a padded fraction. -/
theorem isDigitForm_or_spells (h : Spells s l) (f : FloatFormat) :
    IsDigitForm (l.spelling f) ∨ Spells (l.spelling f) (l.pad f) := by
  cases h with
  | infinity negative => exact Or.inr (.infinity negative)
  | notANumber => exact Or.inr .notANumber
  | negativeZero suffix hf => exact Or.inr (.negativeZero none (Or.inl rfl))
  | integer suffix hd hf hz => exact Or.inl ⟨_, _, hd, rfl⟩
  | power hx hz =>
    right
    rw [spelling_power]
    exact .power (scaledNumeral_wellFormed.mpr (scaledNumeral_wellFormed.mp hx)) hz
  | fractional hx hz =>
    right
    rw [spelling_fractional]
    exact .fractional (scaledNumeral_wellFormed_pad hx f.hexDigits) fun h =>
      hz ⟨eq_zero_of_padFraction h.1, h.2⟩

/-- The spelling of a literal as a decimal digit is the same for all formats. -/
theorem spelling_eq_of_isDigitForm (h : IsDigitForm (l.spelling f)) (g : FloatFormat) :
    l.spelling g = l.spelling f := by
  cases l with
  | fractional n fraction exponent =>
    have hlen := h.length_le
    simp [spelling_of_fractional] at hlen
    omega
  | _ => rfl

/-- What is not a decimal digit is spelled for another format as the literal for the wider one. -/
theorem canonicalize_spelling (h : Spells s l) (hd : ¬ IsDigitForm (l.spelling f))
    (g : FloatFormat) : canonicalize g (l.spelling f) = .ok (l.spelling (f.wider g)) := by
  have hr := read?_eq_some_iff.mpr ((isDigitForm_or_spells h f).resolve_left hd)
  exact canonicalize_eq_ok_iff.mpr ⟨_, hr, spelling_pad f g l⟩

theorem canonicalizeAll_cons_of_ok (h : canonicalize f s = .ok t) (fs : List FloatFormat) :
    canonicalizeAll (f :: fs) s = .ok t :: canonicalizeAll fs t := by
  rw [canonicalizeAll_cons, h]

theorem length_canonicalizeAll (fs : List FloatFormat) (s : Text) :
    (canonicalizeAll fs s).length = fs.length := by
  induction fs generalizing s with
  | nil => rfl
  | cons f fs ih =>
    rw [canonicalizeAll_cons]
    split <;> rw [List.length_cons, List.length_cons, ih]

/-- A text that is no literal is refused however often it is tried. -/
theorem canonicalizeAll_of_none (h : read? s = none) (fs : List FloatFormat) :
    canonicalizeAll fs s = fs.map fun _ => .error ⟨s⟩ := by
  induction fs with
  | nil => rfl
  | cons f fs ih =>
    have hs : canonicalize f s = .error ⟨s⟩ := canonicalize_eq_error_iff.mpr ⟨h, rfl⟩
    rw [canonicalizeAll_cons, hs, List.map_cons]
    exact congrArg (_ :: ·) ih

/-- A spelling that is spelled on is that for all formats up to the step, one after another. -/
theorem getElem?_canonicalizeAll_spelling (h : Spells s l)
    (hd : ∀ f, ¬ IsDigitForm (l.spelling f)) (f : FloatFormat) (hk : k < fs.length) :
    (canonicalizeAll fs (l.spelling f))[k]? =
      some (.ok (l.spelling ((fs.take (k + 1)).foldl FloatFormat.wider f))) := by
  induction fs generalizing f k with
  | nil => exact absurd hk (Nat.not_lt_zero k)
  | cons g fs ih =>
    rw [canonicalizeAll_cons_of_ok (canonicalize_spelling h (hd f) g)]
    cases k with
    | zero => rfl
    | succ k => exact ih (f.wider g) (Nat.lt_of_succ_lt_succ hk)

/--
A text is spelled for one format after another, each time what was spelled last. If it is no
literal, nothing is ever spelled; if it is a decimal digit for the first format, it is refused from
then on. Otherwise each step gives the spelling of the text for the widest format up to the step,
and a second step for the same format changes nothing.
-/
theorem canonicalizeAll_steps (f : FloatFormat) (fs : List FloatFormat) (s : Text) :
    (canonicalizeAll (f :: fs) s).length = fs.length + 1 ∧
    (∀ e, canonicalize f s = .error e →
      canonicalizeAll (f :: fs) s = (f :: fs).map fun _ => .error ⟨s⟩) ∧
    (∀ t, canonicalize f s = .ok t → IsDigitForm t →
      canonicalizeAll (f :: fs) s = .ok t :: fs.map fun _ => .error ⟨t⟩) ∧
    (∀ t, canonicalize f s = .ok t → ¬ IsDigitForm t →
      (∀ k ≤ fs.length, (∃ g, FloatFormat.IsWidestOf g ((f :: fs).take (k + 1))) ∧
        ∀ g, FloatFormat.IsWidestOf g ((f :: fs).take (k + 1)) →
          ∃ u, canonicalize g s = .ok u ∧ (canonicalizeAll (f :: fs) s)[k]? = some (.ok u)) ∧
      canonicalize f t = .ok t) := by
  refine ⟨length_canonicalizeAll _ s, fun e he => ?_, fun t ht hd => ?_,
    fun t ht hd => ⟨fun k hk => ?_, ?_⟩⟩
  · exact canonicalizeAll_of_none (canonicalize_eq_error_iff.mp he).1 _
  · rw [canonicalizeAll_cons_of_ok ht, canonicalizeAll_of_none (read?_of_isDigitForm hd)]
  · obtain ⟨l, hl, rfl⟩ := canonicalize_eq_ok_iff.mp ht
    have hs := read?_eq_some_iff.mp hl
    have hall : ∀ g, ¬ IsDigitForm (l.spelling g) := by
      intro g hg
      exact hd (spelling_eq_of_isDigitForm hg f ▸ hg)
    have hw := FloatFormat.isWidestOf_foldl f (fs.take k)
    rw [List.take_succ_cons]
    refine ⟨⟨_, hw⟩, fun g hg => ⟨_, canonicalize_eq_ok_iff.mpr ⟨l, hl, rfl⟩, ?_⟩⟩
    rw [hg.unique hw, canonicalizeAll_cons_of_ok ht]
    cases k with
    | zero => rfl
    | succ k => exact getElem?_canonicalizeAll_spelling hs hall f hk
  · obtain ⟨l, hl, rfl⟩ := canonicalize_eq_ok_iff.mp ht
    have hf : f.wider f = f := by cases f <;> rfl
    have hc := canonicalize_spelling (read?_eq_some_iff.mp hl) hd f
    rwa [hf] at hc

/-- A fraction that has been padded for a wide format stays so for a narrow one. -/
theorem canonicalizeAll_steps_narrowed :
    canonicalize .f16 "0x1.8p+1L".toList = .ok "0x1.800p+1".toList ∧
      ¬ IsDigitForm "0x1.800p+1".toList ∧
      (canonicalizeAll [.f16, .f64, .f32] "0x1.8p+1L".toList)[2]? =
        some (.ok "0x1.8000000000000p+1".toList) := by
  have hf : canonicalize .f16 "0x1.8p+1L".toList = .ok "0x1.800p+1".toList := rfl
  have hd : ¬ IsDigitForm "0x1.800p+1".toList := fun h => absurd h.length_le (by decide)
  have hw : FloatFormat.IsWidestOf .f64 [.f16, .f64, .f32] := ⟨by decide, by decide⟩
  obtain ⟨u, hu, hs⟩ :=
    (((canonicalizeAll_steps .f16 [.f64, .f32] _).2.2.2 _ hf hd).1 2 (Nat.le_refl 2)).2 _ hw
  obtain rfl : "0x1.8000000000000p+1".toList = u := Except.ok.inj hu
  exact ⟨hf, hd, hs⟩

end Literal
end FloatCases
