import FloatCases.Proofs.Evidence.Demand

/-!
The format of a file by the numerals in its lines. Main statement: it is the widest that a line asks
for, in whatever order and however often the lines stand, and it is decided by the suffixes and the
sizes of the numerals.
-/
namespace FloatCases

variable {a b lines : List Text} {x : Lexeme} {s : Text}

namespace Lexeme

/-- What a scan finds is a numeral. -/
theorem wellFormed_of_mem_scan (h : x ∈ scan s) : x.WellFormed := by
  induction hk : s.length using Nat.strong_induction_on generalizing s with
  | _ k ih =>
    by_cases hs : s = []
    · rw [hs, scan_nil] at h
      exact absurd h List.not_mem_nil
    · have hlt := step_length_lt hs
      rw [scan_of_ne_nil hs, List.mem_append] at h
      rcases h with h | h
      · have hx : (step s).1 = some x := by simpa using h
        exact (step_sound (r := (step s).2) (by rw [← hx])).1
      · exact ih _ (hk ▸ hlt) h rfl

/-- Only three formats are ever asked for. -/
theorem demand_cases (x : Lexeme) : x.demand = .f32 ∨ x.demand = .f64 ∨ x.demand = .f128 := by
  unfold demand
  split
  · exact Or.inr (Or.inr rfl)
  · exact Or.inr (Or.inl rfl)
  · split
    · exact Or.inr (Or.inl rfl)
    · exact Or.inl rfl

/-- Double precision is enough for what has no quad suffix. -/
theorem bits_demand_le_double_iff : x.demand.bits ≤ 64 ↔ x.scale.suffix ≠ some .quad := by
  refine ⟨suffix_ne_quad_of_demand, fun h => ?_⟩
  unfold demand
  split
  · exact absurd ‹_› h
  · decide
  · split <;> decide

/-- Single precision is enough for what has no suffix and is small. -/
theorem bits_demand_le_single_iff (hx : x.WellFormed) :
    x.demand.bits ≤ 32 ↔
      x.scale.suffix = none ∧ x.fraction.length ≤ 6 ∧ Text.number 10 x.scale.digits ≤ 127 := by
  refine ⟨small_of_demand hx, fun ⟨hs, hf, he⟩ => ?_⟩
  have hsmall : x.exceedsSingle = false := (exceedsSingle_eq_false_iff hx).mpr ⟨hf, he⟩
  simp [demand, hs, hsmall, FloatFormat.bits]

end Lexeme

namespace Inference

theorem wellFormed_of_mem_evidence (h : x ∈ lines.flatMap evidence) : x.WellFormed := by
  obtain ⟨line, -, hx⟩ := List.mem_flatMap.mp h
  exact Lexeme.wellFormed_of_mem_scan hx

/-- Only three formats are ever inferred. -/
theorem infer_cases (lines : List Text) :
    infer lines = .f32 ∨ infer lines = .f64 ∨ infer lines = .f128 := by
  unfold infer
  induction lines.flatMap evidence with
  | nil => exact Or.inl rfl
  | cons x xs ih =>
    rw [List.foldr_cons, FloatFormat.wider]
    split
    · exact ih
    · exact x.demand_cases

/-- More lines do not make the format narrower. -/
theorem bits_infer_mono (h : a ⊆ b) : (infer a).bits ≤ (infer b).bits := by
  obtain ⟨hb, hx⟩ := bits_infer_le_iff.mp (le_refl (infer b).bits)
  refine bits_infer_le_iff.mpr ⟨hb, fun x hxa => hx x ?_⟩
  obtain ⟨line, hl, hxl⟩ := List.mem_flatMap.mp hxa
  exact List.mem_flatMap.mpr ⟨line, h hl, hxl⟩

/-- Neither the order of the lines nor their number counts. -/
theorem infer_congr (h : ∀ line, line ∈ a ↔ line ∈ b) : infer a = infer b := by
  have hab : (infer a).bits ≤ (infer b).bits := bits_infer_mono fun line => (h line).mp
  have hba : (infer b).bits ≤ (infer a).bits := bits_infer_mono fun line => (h line).mpr
  exact FloatFormat.bits_injective (le_antisymm hab hba)

/-- Single precision is inferred if every numeral is small and has no suffix. -/
theorem infer_eq_single_iff :
    infer lines = .f32 ↔ ∀ x ∈ lines.flatMap evidence,
      x.scale.suffix = none ∧ x.fraction.length ≤ 6 ∧ Text.number 10 x.scale.digits ≤ 127 := by
  have hbits : infer lines = .f32 ↔ (infer lines).bits ≤ 32 := by
    rcases infer_cases lines with h | h | h <;> rw [h] <;> decide
  rw [hbits, bits_infer_le_iff, and_iff_right le_rfl]
  exact forall₂_congr fun x hx =>
    Lexeme.bits_demand_le_single_iff (wellFormed_of_mem_evidence hx)

/-- Quadruple precision is inferred if some numeral has the suffix for it. -/
theorem infer_eq_quad_iff :
    infer lines = .f128 ↔ ∃ x ∈ lines.flatMap evidence, x.scale.suffix = some .quad := by
  have hbits : infer lines = .f128 ↔ ¬ (infer lines).bits ≤ 64 := by
    rcases infer_cases lines with h | h | h <;> rw [h] <;> decide
  rw [hbits, bits_infer_le_iff, and_iff_right (by decide)]
  simp only [Lexeme.bits_demand_le_double_iff, not_forall, not_not, exists_prop]

/-- Double precision is inferred in the cases that are left. -/
theorem infer_eq_double_iff :
    infer lines = .f64 ↔ (∀ x ∈ lines.flatMap evidence, x.scale.suffix ≠ some .quad) ∧
      ∃ x ∈ lines.flatMap evidence, x.scale.suffix = some .long ∨ 6 < x.fraction.length ∨
        127 < Text.number 10 x.scale.digits := by
  have hrest : infer lines = .f64 ↔ ¬ infer lines = .f128 ∧ ¬ infer lines = .f32 := by
    rcases infer_cases lines with h | h | h <;> rw [h] <;> decide
  rw [hrest, infer_eq_quad_iff, infer_eq_single_iff]
  push Not
  refine and_congr_right fun hq => exists_congr fun x => and_congr_right fun hx => ?_
  have hs := hq x hx
  generalize x.scale.suffix = suffix at hs ⊢
  rcases suffix with _ | _ | _
  · simp only [reduceCtorEq, false_or, forall_const]
    omega
  · simp
  · exact absurd rfl hs

/--
The format that is inferred from two files in a row is the wider of the two, and there are only
three formats to infer. So neither the order of the lines nor their number counts, and more lines
never make the format narrower. It is quadruple precision if a numeral has the suffix for it, else
double precision if a numeral has a suffix, more than six fraction digits or an exponent beyond 127,
else single precision.
-/
theorem infer_semilattice :
    (∀ a b : List Text, infer (a ++ b) = (infer a).wider (infer b) ∧
      (infer (a ++ b)).bits = max (infer a).bits (infer b).bits) ∧
    (∀ a b : List Text, (∀ line, line ∈ a ↔ line ∈ b) → infer a = infer b) ∧
    (∀ a b : List Text, a ⊆ b → (infer a).bits ≤ (infer b).bits) ∧
    ∀ a : List Text,
      (infer a = .f32 ∨ infer a = .f64 ∨ infer a = .f128) ∧
      (infer a = .f128 ↔ ∃ x ∈ a.flatMap evidence, x.scale.suffix = some .quad) ∧
      (infer a = .f64 ↔ (∀ x ∈ a.flatMap evidence, x.scale.suffix ≠ some .quad) ∧
        ∃ x ∈ a.flatMap evidence, x.scale.suffix = some .long ∨ 6 < x.fraction.length ∨
          127 < Text.number 10 x.scale.digits) ∧
      (infer a = .f32 ↔ ∀ x ∈ a.flatMap evidence,
        x.scale.suffix = none ∧ x.fraction.length ≤ 6 ∧ Text.number 10 x.scale.digits ≤ 127) := by
  refine ⟨fun a b => ⟨infer_append a b, ?_⟩, fun a b => infer_congr, fun a b => bits_infer_mono,
    fun a => ⟨infer_cases a, infer_eq_quad_iff, infer_eq_double_iff, infer_eq_single_iff⟩⟩
  rw [infer_append, FloatFormat.bits_wider]

/-- A line that asks for double precision, alone and twice around a line that asks for less. -/
theorem infer_semilattice_repeated :
    let wide := "T(RN, 0x1p+0, 0x1p-1022, 0x0p+0, 0)".toList
    let narrow := "T(RN, 0x1.8p+1, inf, 0x0p+0, 0)".toList
    infer [wide, narrow, wide] = infer [narrow, wide] ∧
      (infer [narrow]).bits ≤ (infer [narrow, wide]).bits ∧ infer [narrow, wide] = .f64 := by
  intro wide narrow
  obtain ⟨-, hsame, hmono, -⟩ := infer_semilattice
  have hmem : ∀ w n line : Text, line ∈ [w, n, w] ↔ line ∈ [n, w] := by
    intro w n line
    simp only [List.mem_cons, List.not_mem_nil, or_false]
    tauto
  exact ⟨hsame _ _ (hmem wide narrow), hmono _ _ (List.subset_append_left [narrow] [wide]),
    by decide +kernel⟩

end Inference
end FloatCases
