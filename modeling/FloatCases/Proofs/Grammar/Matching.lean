import FloatCases.Grammar.Pattern
import FloatCases.Proofs.Text.Runs
import Mathlib.Computability.Language

/-!
What patterns match. Every match lies in the regular language of its pattern. The converse depends
on what follows, as choice is ordered and repetition is greedy: one lemma for each form of pattern
says where it comes to its end.
-/
namespace FloatCases.Pattern

open Computability

variable {ρ : Type} {p q : Pattern ρ} {n k : Nat} {s t w w' r r' : Text} {m : Match ρ} {label : ρ}
  {ts ts' : List (Tree ρ)} {accepts : Char → Bool}

/-- The texts that a pattern describes where choice is free and repetition stops anywhere. -/
def language : Pattern ρ → Language Char
  | char accepts => {s | ∃ c, accepts c = true ∧ s = [c]}
  | text t => {t}
  | seq p q => p.language * q.language
  | alt p q => p.language + q.language
  | opt p => 1 + p.language
  | many p => p.language∗
  | node _ p => p.language
  | token _ p => p.language
  | finish _ => 1

@[simp]
theorem mem_language_char :
    s ∈ (char accepts : Pattern ρ).language ↔ ∃ c, accepts c = true ∧ s = [c] :=
  Iff.rfl

@[simp]
theorem mem_language_text : s ∈ (text t : Pattern ρ).language ↔ s = t :=
  Iff.rfl

@[simp]
theorem mem_language_seq :
    s ∈ (p ++ q).language ↔ ∃ w ∈ p.language, ∃ r ∈ q.language, w ++ r = s :=
  Language.mem_mul

@[simp]
theorem mem_language_alt : s ∈ (p ||| q).language ↔ s ∈ p.language ∨ s ∈ q.language :=
  Iff.rfl

@[simp]
theorem mem_language_opt : s ∈ (opt p).language ↔ s = [] ∨ s ∈ p.language :=
  Iff.rfl

@[simp]
theorem mem_language_node : s ∈ (node label p).language ↔ s ∈ p.language :=
  Iff.rfl

@[simp]
theorem mem_language_token : s ∈ (token label p).language ↔ s ∈ p.language :=
  Iff.rfl

@[simp]
theorem mem_language_many_char :
    s ∈ (many (char accepts) : Pattern ρ).language ↔ ∀ c ∈ s, accepts c = true := by
  change s ∈ (char accepts : Pattern ρ).language∗ ↔ _
  constructor
  · intro h c hc
    obtain ⟨l, rfl, hl⟩ := Language.mem_kstar.mp h
    obtain ⟨w, hw, hcw⟩ := List.mem_flatten.mp hc
    obtain ⟨d, hd, rfl⟩ := hl w hw
    rwa [List.mem_singleton.mp hcw]
  · intro h
    refine Language.mem_kstar.mpr ⟨s.map fun c => [c], (List.flatMap_singleton' s).symm, ?_⟩
    intro w hw
    obtain ⟨c, hc, rfl⟩ := List.mem_map.mp hw
    exact ⟨c, h c hc, rfl⟩

@[simp]
theorem mem_language_many1_char :
    s ∈ (many1 (char accepts) : Pattern ρ).language ↔ s ≠ [] ∧ ∀ c ∈ s, accepts c = true := by
  rw [many1, mem_language_seq]
  constructor
  · rintro ⟨w, ⟨c, hc, rfl⟩, r, hr, rfl⟩
    rw [mem_language_many_char] at hr
    exact ⟨List.cons_ne_nil c r, List.forall_mem_cons.mpr ⟨hc, hr⟩⟩
  · rintro ⟨hne, h⟩
    obtain ⟨c, r, rfl⟩ := List.exists_cons_of_ne_nil hne
    obtain ⟨hc, hr⟩ := List.forall_mem_cons.mp h
    exact ⟨[c], ⟨c, hc, rfl⟩, r, mem_language_many_char.mpr hr, rfl⟩

/-- A match takes a text of the language of its pattern from the head of the text. -/
def Describes (p : Pattern ρ) (s : Text) (m : Match ρ) : Prop :=
  m.consumed ++ m.rest = s ∧ m.consumed ∈ p.language

theorem describes_iterate (h : ∀ n s m, p.matchAt n s = some m → p.Describes s m) (k n : Nat)
    (s : Text) : (many p).Describes s (iterate p.matchAt k n s) := by
  induction k generalizing n s with
  | zero => exact ⟨rfl, Language.nil_mem_kstar _⟩
  | succ k ih =>
    cases hs : p.matchAt n s with
    | none =>
      rw [iterate_none hs]
      exact ⟨rfl, Language.nil_mem_kstar _⟩
    | some m =>
      rw [iterate_some hs]
      obtain ⟨hm, hl⟩ := h n s m hs
      obtain ⟨hi, hk⟩ := ih (n + Text.byteSize m.consumed) m.rest
      refine ⟨by simp [Match.append, hi, hm], ?_⟩
      change m.consumed ++ _ ∈ p.language∗
      rw [← Language.one_add_self_mul_kstar_eq_kstar]
      exact Or.inr (Language.append_mem_mul hl hk)

/-- What a pattern matches is in its language. -/
theorem describes_of_matchAt (h : p.matchAt n s = some m) : p.Describes s m := by
  induction p generalizing n s m with
  | char accepts =>
    cases s with
    | nil => simp [matchAt] at h
    | cons c s =>
      simp only [matchAt, Option.ite_none_right_eq_some, Option.some.injEq] at h
      obtain ⟨hc, rfl⟩ := h
      exact ⟨rfl, c, hc, rfl⟩
  | text t =>
    simp only [matchAt, Option.ite_none_right_eq_some, Option.some.injEq] at h
    obtain ⟨ht, rfl⟩ := h
    obtain ⟨r, rfl⟩ := List.isPrefixOf_iff_prefix.mp ht
    exact ⟨by simp, rfl⟩
  | seq p q ihp ihq =>
    simp only [matchAt] at h
    split at h
    · simp at h
    · rename_i a ha
      obtain ⟨b, hb, rfl⟩ := Option.map_eq_some_iff.mp h
      obtain ⟨hsa, hla⟩ := ihp ha
      obtain ⟨hsb, hlb⟩ := ihq hb
      exact ⟨by simp [Match.append, hsb, hsa], Language.append_mem_mul hla hlb⟩
  | alt p q ihp ihq =>
    simp only [matchAt] at h
    split at h
    · exact ⟨(ihq h).1, Or.inr (ihq h).2⟩
    · rename_i a ha
      obtain rfl := Option.some.inj h
      exact ⟨(ihp ha).1, Or.inl (ihp ha).2⟩
  | opt p ih =>
    simp only [matchAt, Option.some.injEq] at h
    cases ha : p.matchAt n s with
    | none =>
      obtain rfl : Match.nothing s = m := by simpa [ha] using h
      exact ⟨rfl, Or.inl rfl⟩
    | some a =>
      obtain rfl : a = m := by simpa [ha] using h
      exact ⟨(ih ha).1, Or.inr (ih ha).2⟩
  | many p ih =>
    simp only [matchAt, Option.some.injEq] at h
    subst h
    exact describes_iterate (fun _ _ _ => ih) _ _ _
  | node label p ih =>
    simp only [matchAt] at h
    obtain ⟨a, ha, rfl⟩ := Option.map_eq_some_iff.mp h
    exact ⟨(ih ha).1, (ih ha).2⟩
  | token label p ih =>
    simp only [matchAt] at h
    obtain ⟨a, ha, rfl⟩ := Option.map_eq_some_iff.mp h
    exact ⟨(ih ha).1, (ih ha).2⟩
  | finish label =>
    simp only [matchAt, Option.ite_none_right_eq_some, Option.some.injEq] at h
    obtain ⟨rfl, rfl⟩ := h
    exact ⟨rfl, rfl⟩

/-- A pattern fails where no head of the text is in its language. -/
theorem matchAt_eq_none (h : ∀ w r, w ++ r = s → w ∉ p.language) : p.matchAt n s = none := by
  cases hm : p.matchAt n s with
  | none => rfl
  | some m =>
    obtain ⟨hs, hl⟩ := describes_of_matchAt hm
    exact absurd hl (h _ _ hs)

theorem matchAt_seq (hp : p.matchAt n s = some ⟨w, ts, r⟩)
    (hq : q.matchAt (n + Text.byteSize w) r = some ⟨w', ts', r'⟩) :
    (p ++ q).matchAt n s = some ⟨w ++ w', ts ++ ts', r'⟩ := by
  change (seq p q).matchAt n s = _
  simp [matchAt, hp, hq, Match.append]

/-- Of two patterns in a row only the second has labelled parts. -/
theorem matchAt_skip (hp : p.matchAt n s = some ⟨w, [], r⟩)
    (hq : q.matchAt (n + Text.byteSize w) r = some ⟨w', ts, r'⟩) :
    (p ++ q).matchAt n s = some ⟨w ++ w', ts, r'⟩ :=
  matchAt_seq hp hq

/-- Of two patterns in a row the first is a fixed text. -/
theorem matchAt_text_append (t : Text)
    (hq : q.matchAt (n + Text.byteSize t) r = some ⟨w', ts, r'⟩) :
    (text t ++ q : Pattern ρ).matchAt n (t ++ r) = some ⟨t ++ w', ts, r'⟩ :=
  matchAt_skip (matchAt_text t r n) hq

/-- Of two patterns in a row the first is one labelled part. -/
theorem matchAt_part {a : Tree ρ} (hp : p.matchAt n s = some ⟨w, [a], r⟩)
    (hq : q.matchAt (n + Text.byteSize w) r = some ⟨w', ts, r'⟩) :
    (p ++ q).matchAt n s = some ⟨w ++ w', a :: ts, r'⟩ :=
  matchAt_seq hp hq

/-- Patterns in a row can be grouped to the right. -/
theorem matchAt_assoc {p₁ p₂ p₃ : Pattern ρ} :
    (p₁ ++ p₂ ++ p₃).matchAt n s = (p₁ ++ (p₂ ++ p₃)).matchAt n s := by
  change (seq (seq p₁ p₂) p₃).matchAt n s = (seq p₁ (seq p₂ p₃)).matchAt n s
  cases h₁ : p₁.matchAt n s with
  | none => simp [matchAt, h₁]
  | some m₁ =>
    cases h₂ : p₂.matchAt (n + Text.byteSize m₁.consumed) m₁.rest with
    | none => simp [matchAt, h₁, h₂]
    | some m₂ =>
      have hn : n + Text.byteSize m₁.consumed + Text.byteSize m₂.consumed =
          n + Text.byteSize (m₁.consumed ++ m₂.consumed) := by
        rw [Text.byteSize_append, Nat.add_assoc]
      cases h₃ : p₃.matchAt (n + Text.byteSize (m₁.consumed ++ m₂.consumed)) m₂.rest <;>
        simp only [matchAt, h₁, h₂, hn, h₃, Match.append, Option.map_some, Option.map_none,
          List.append_assoc]

theorem matchAt_seq_none (hp : p.matchAt n s = some ⟨w, ts, r⟩)
    (hq : q.matchAt (n + Text.byteSize w) r = none) : (p ++ q).matchAt n s = none := by
  change (seq p q).matchAt n s = _
  simp [matchAt, hp, hq]

theorem matchAt_none_seq (hp : p.matchAt n s = none) : (p ++ q).matchAt n s = none := by
  change (seq p q).matchAt n s = _
  simp [matchAt, hp]

theorem matchAt_alt_left (hp : p.matchAt n s = some m) : (p ||| q).matchAt n s = some m := by
  change (alt p q).matchAt n s = _
  simp [matchAt, hp]

theorem matchAt_alt_right (hp : p.matchAt n s = none) (hq : q.matchAt n s = some m) :
    (p ||| q).matchAt n s = some m := by
  change (alt p q).matchAt n s = _
  simp [matchAt, hp, hq]

theorem matchAt_alt_none (hp : p.matchAt n s = none) (hq : q.matchAt n s = none) :
    (p ||| q).matchAt n s = none := by
  change (alt p q).matchAt n s = _
  simp [matchAt, hp, hq]

theorem matchAt_opt_some (hp : p.matchAt n s = some m) : (opt p).matchAt n s = some m := by
  simp [matchAt, hp]

theorem matchAt_opt_none (hp : p.matchAt n s = none) :
    (opt p).matchAt n s = some ⟨[], [], s⟩ := by
  simp [matchAt, hp, Match.nothing]

theorem matchAt_node (hp : p.matchAt n s = some ⟨w, ts, r⟩) :
    (node label p).matchAt n s = some ⟨w, [⟨label, n, w, ts⟩], r⟩ := by
  simp [matchAt, hp, Match.labelled]

theorem matchAt_node_none (hp : p.matchAt n s = none) : (node label p).matchAt n s = none := by
  simp [matchAt, hp]

theorem matchAt_token (hp : p.matchAt n s = some ⟨w, ts, r⟩) :
    (token label p).matchAt n s = some ⟨w, [⟨label, n, w, []⟩], r⟩ := by
  simp [matchAt, hp, Match.labelled]

theorem matchAt_text_none (h : ¬ t <+: s) : (text t : Pattern ρ).matchAt n s = none := by
  simpa [matchAt] using h

/-- A pattern before the end of the text fails on a text outside of its language. -/
theorem matchAt_finish_none (h : s ∉ p.language) :
    (p ++ finish label).matchAt n s = none := by
  change (seq p (finish label)).matchAt n s = none
  cases hm : p.matchAt n s with
  | none => simp [matchAt, hm]
  | some m =>
    obtain ⟨hs, hl⟩ := describes_of_matchAt hm
    have hr : m.rest ≠ [] := by
      intro hr
      rw [hr, List.append_nil] at hs
      exact h (hs ▸ hl)
    simp [matchAt, hm, hr]

theorem iterate_char (hw : ∀ c ∈ w, accepts c = true) (hr : Text.Stops accepts r)
    (hk : (w ++ r).length ≤ k) :
    iterate (char accepts : Pattern ρ).matchAt k n (w ++ r) = ⟨w, [], r⟩ := by
  induction w generalizing k n with
  | nil =>
    refine iterate_none ?_ k
    cases r with
    | nil => rfl
    | cons c r => simp [matchAt, Text.stops_cons.mp hr]
  | cons c w ih =>
    obtain ⟨k, rfl⟩ : ∃ j, k = j + 1 := ⟨k - 1, by simp at hk; omega⟩
    have hc : (char accepts : Pattern ρ).matchAt n (c :: (w ++ r)) = some ⟨[c], [], w ++ r⟩ := by
      simp [matchAt, hw c List.mem_cons_self]
    have hi := ih (n := n + Text.byteSize [c]) (fun d hd => hw d (List.mem_cons_of_mem c hd))
      (Nat.le_of_succ_le_succ hk)
    rw [List.cons_append, iterate_some hc, hi]
    rfl

/-- A repeated class takes the whole run. -/
theorem matchAt_many_char (hw : ∀ c ∈ w, accepts c = true) (hr : Text.Stops accepts r) :
    (many (char accepts) : Pattern ρ).matchAt n (w ++ r) = some ⟨w, [], r⟩ := by
  rw [matchAt, iterate_char hw hr (Nat.le_refl _)]

theorem matchAt_many1_char (hne : w ≠ []) (hw : ∀ c ∈ w, accepts c = true)
    (hr : Text.Stops accepts r) :
    (many1 (char accepts) : Pattern ρ).matchAt n (w ++ r) = some ⟨w, [], r⟩ := by
  obtain ⟨c, w, rfl⟩ := List.exists_cons_of_ne_nil hne
  have hc : (char accepts : Pattern ρ).matchAt n (c :: (w ++ r)) = some ⟨[c], [], w ++ r⟩ := by
    simp [matchAt, hw c List.mem_cons_self]
  exact matchAt_seq hc
    (matchAt_many_char (fun d hd => hw d (List.mem_cons_of_mem c hd)) hr)

end FloatCases.Pattern
