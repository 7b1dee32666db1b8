import FloatCases.Proofs.Evidence.Scan

/-!
The format that numerals ask for. Main statements: an inferred format is as wide as each numeral of
the evidence asks for, and what is inferred from two files in a row is the wider of their formats.
-/
namespace FloatCases

variable {line : Text} {x : Lexeme}

theorem FloatFormat.bits_wider (f g : FloatFormat) : (f.wider g).bits = max f.bits g.bits := by
  unfold FloatFormat.wider
  split <;> omega

theorem FloatFormat.bits_injective : Function.Injective FloatFormat.bits := by
  intro f g h
  cases f <;> cases g <;> first | rfl | exact absurd h (by decide)

namespace Inference

variable {b : Nat}

/-- What is inferred from numerals on top of a format is the narrowest that is wide enough. -/
theorem bits_foldr_demand_le_iff {g : FloatFormat} {xs : List Lexeme} :
    (xs.foldr (fun x f => x.demand.wider f) g).bits ≤ b ↔
      g.bits ≤ b ∧ ∀ x ∈ xs, x.demand.bits ≤ b := by
  induction xs with
  | nil => simp
  | cons x xs ih =>
    rw [List.foldr_cons, FloatFormat.bits_wider, max_le_iff, ih, List.forall_mem_cons]
    tauto

/-- An inferred format is the narrowest that single precision and the evidence fit in. -/
theorem bits_infer_le_iff {lines : List Text} :
    (infer lines).bits ≤ b ↔
      32 ≤ b ∧ ∀ x ∈ lines.flatMap evidence, x.demand.bits ≤ b :=
  bits_foldr_demand_le_iff

/-- An inferred format is as wide as every numeral of the evidence asks for. -/
theorem bits_demand_le {lines : List Text} (hl : line ∈ lines)
    (hx : x ∈ evidence line) : x.demand.bits ≤ (infer lines).bits :=
  (bits_infer_le_iff.mp le_rfl).2 x (List.mem_flatMap.mpr ⟨line, hl, hx⟩)

/-- The format of lines in a row is the wider of the formats of the two parts. -/
theorem infer_append (lines lines' : List Text) :
    infer (lines ++ lines') = (infer lines).wider (infer lines') := by
  refine FloatFormat.bits_injective (eq_of_forall_ge_iff fun b => ?_)
  rw [FloatFormat.bits_wider, max_le_iff, bits_infer_le_iff, bits_infer_le_iff, bits_infer_le_iff,
    List.flatMap_append, List.forall_mem_append]
  tauto

end Inference

namespace Lexeme

/-- What is small enough for single precision, by its digits. -/
theorem exceedsSingle_eq_false_iff (hx : x.WellFormed) :
    x.exceedsSingle = false ↔
      x.fraction.length ≤ 6 ∧ Text.number 10 x.scale.digits ≤ 127 := by
  have hm := Scale.magnitude_eq hx.scale
  have hl : 127 < Scale.magnitudeLimit := by decide
  simp only [exceedsSingle, Bool.or_eq_false_iff, decide_eq_false_iff_not, Nat.not_lt, hm]
  omega

/-- What asks for single precision at most has no suffix and is small. -/
theorem small_of_demand (hx : x.WellFormed) (h : x.demand.bits ≤ 32) :
    x.scale.suffix = none ∧ x.fraction.length ≤ 6 ∧ Text.number 10 x.scale.digits ≤ 127 := by
  rw [demand] at h
  cases hs : x.scale.suffix with
  | some suffix => cases suffix <;> simp [hs, FloatFormat.bits] at h
  | none =>
    cases he : x.exceedsSingle with
    | true => simp [hs, he, FloatFormat.bits] at h
    | false => exact ⟨rfl, (exceedsSingle_eq_false_iff hx).mp he⟩

/-- What asks for double precision at most has no quad suffix. -/
theorem suffix_ne_quad_of_demand (h : x.demand.bits ≤ 64) : x.scale.suffix ≠ some .quad := by
  intro hs
  simp only [demand, hs] at h
  exact absurd h (by decide)

end Lexeme
end FloatCases
