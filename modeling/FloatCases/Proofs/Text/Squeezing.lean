import FloatCases.Proofs.Text.Words
import Mathlib.Logic.ExistsUnique

/-!
The words of a text as its longest parts without a space, and squeezed texts. Main statement: a
squeezed text has the words of the text and as few spaces as these allow, so two texts are squeezed
to the same if they have the same words.
-/
namespace FloatCases.Text

variable {s t w : Text} {ws us vs : List Text}

/--
A text is parted into words by runs of spaces. A space or the end of the text follows each word, and
spaces or the start stand before it, so no word can be made longer.
-/
inductive Parted : Text → List Text → Prop
  /-- Spaces alone have no words. -/
  | spaces (n : Nat) : Parted (List.replicate n ' ') []
  /-- Spaces, a word and a text that does not go on with it. -/
  | word {s w : Text} {ws : List Text} (n : Nat) : w ≠ [] → ' ' ∉ w → Stops (· ≠ ' ') s →
      Parted s ws → Parted (List.replicate n ' ' ++ w ++ s) (w :: ws)

theorem Parted.space (h : Parted s ws) : Parted (' ' :: s) ws := by
  cases h with
  | spaces n => exact .spaces (n + 1)
  | word n hne hw hs h => exact .word (n + 1) hne hw hs h

theorem words_replicate_append (n : Nat) (s : Text) :
    words (List.replicate n ' ' ++ s) = words s := by
  induction n with
  | zero => rfl
  | succ n ih => rw [List.replicate_succ, List.cons_append, words_cons, ih]

/-- A word that the text does not go on with is the first. -/
theorem words_append_of_stops (hne : w ≠ []) (hw : ' ' ∉ w) (hs : Stops (· ≠ ' ') s) :
    words (w ++ s) = w :: words s := by
  cases s with
  | nil => rw [List.append_nil, words_of_not_mem hne hw]; rfl
  | cons c s =>
    obtain rfl : c = ' ' := by simpa using hs
    rw [words_append_cons, words_of_not_mem hne hw, words_cons]
    rfl

theorem Parted.words_eq (h : Parted s ws) : words s = ws := by
  induction h with
  | spaces n => exact words_replicate n
  | word n hne hw hs _ ih =>
    rw [List.append_assoc, words_replicate_append, words_append_of_stops hne hw hs, ih]

/-- Pieces with a space between each two are parted into those that are not empty. -/
theorem parted_intercalate (h : ∀ w ∈ ws, ' ' ∉ w) :
    Parted (List.intercalate [' '] ws) (ws.filter (· ≠ [])) := by
  induction ws with
  | nil => exact .spaces 0
  | cons w ws ih =>
    obtain ⟨hw, hws⟩ := List.forall_mem_cons.mp h
    by_cases hne : w = []
    · rw [List.filter_cons_of_neg (by simpa using hne), hne]
      cases ws with
      | nil => exact .spaces 0
      | cons v ws => exact (ih hws).space
    · rw [List.filter_cons_of_pos (by simpa using hne)]
      cases ws with
      | nil => simpa using Parted.word 0 hne hw stops_nil (.spaces 0)
      | cons v ws =>
        rw [List.intercalate_cons_cons, List.append_assoc]
        exact .word 0 hne hw (by simp) (ih hws).space

/-- The words of a text are the one list that it is parted into. -/
theorem parted_iff : Parted s ws ↔ words s = ws := by
  refine ⟨Parted.words_eq, ?_⟩
  rintro rfl
  have h : ∀ w ∈ List.splitOn ' ' s, ' ' ∉ w := fun w => not_mem_of_mem_splitOn
  have hp := parted_intercalate h
  rwa [List.intercalate_splitOn] at hp

/-- What is not a space is in the words, in order. -/
theorem Parted.filter_eq (h : Parted s ws) : s.filter (· ≠ ' ') = ws.flatten := by
  induction h with
  | spaces n => simp
  | @word s w ws n _ hw _ _ ih =>
    have hf : w.filter (· ≠ ' ') = w := by
      refine List.filter_eq_self.mpr fun c hc => ?_
      rw [decide_eq_true_eq]
      rintro rfl
      exact hw hc
    rw [List.filter_append, List.filter_append, hf, ih]
    simp

theorem filter_squeeze (s : Text) : (squeeze s).filter (· ≠ ' ') = s.filter (· ≠ ' ') := by
  rw [(parted_iff.mpr (words_squeeze s)).filter_eq, (parted_iff.mpr rfl).filter_eq]

/-- With fewer pieces less is written. -/
theorem sublist_intercalate (h : us.Sublist vs) :
    (List.intercalate [' '] us).Sublist (List.intercalate [' '] vs) := by
  induction h with
  | slnil => exact List.Sublist.refl _
  | @cons us vs v h ih =>
    cases vs with
    | nil =>
      rw [List.sublist_nil.mp h]
      exact List.nil_sublist _
    | cons v' vs =>
      rw [List.intercalate_cons_cons]
      exact ih.trans (List.sublist_append_right _ _)
  | @cons_cons us vs v h ih =>
    -- If no piece is left behind `v`, the space behind it goes with the others.
    cases us with
    | nil =>
      obtain ⟨r, hr⟩ := exists_intercalate_cons [' '] v vs
      rw [hr, List.intercalate_singleton]
      exact List.sublist_append_left v r
    | cons u us =>
      have hne : vs ≠ [] := by
        rintro rfl
        exact List.cons_ne_nil u us (List.sublist_nil.mp h)
      obtain ⟨v', vs, rfl⟩ := List.exists_cons_of_ne_nil hne
      rw [List.intercalate_cons_cons, List.intercalate_cons_cons]
      exact (List.Sublist.refl _).append ih

/-- Spaces are left out of a text that is squeezed, and nothing is put in. -/
theorem squeeze_sublist (s : Text) : (squeeze s).Sublist s := by
  have h : (squeeze s).Sublist (List.intercalate [' '] (List.splitOn ' ' s)) :=
    sublist_intercalate List.filter_sublist
  rwa [List.intercalate_splitOn] at h

theorem squeeze_squeeze (s : Text) : squeeze (squeeze s) = squeeze s := by
  rw [squeeze, words_squeeze]
  rfl

theorem squeeze_eq_iff : squeeze s = squeeze t ↔ words s = words t := by
  constructor
  · intro h
    rw [← words_squeeze s, h, words_squeeze]
  · exact congrArg (List.intercalate [' '])

/-- No shorter text has the words of a text than the one that it is squeezed to. -/
theorem length_squeeze_le (h : words t = words s) : (squeeze s).length ≤ t.length :=
  squeeze_eq_iff.mpr h ▸ (squeeze_sublist t).length_le

/-- A space at the start would be one too many. -/
theorem head?_squeeze_ne (s : Text) : (squeeze s).head? ≠ some ' ' := by
  intro h
  obtain ⟨t, ht⟩ := List.head?_eq_some_iff.mp h
  have hw : words t = words s := by rw [← words_squeeze s, ht, words_cons]
  have hl := length_squeeze_le hw
  rw [ht, List.length_cons] at hl
  omega

/-- So would one at the end. -/
theorem getLast?_squeeze_ne (s : Text) : (squeeze s).getLast? ≠ some ' ' := by
  intro h
  obtain ⟨t, ht⟩ := List.getLast?_eq_some_iff.mp h
  have hw : words t = words s := by
    rw [← words_squeeze s, ht]
    exact (words_append_replicate t 1).symm
  have hl := length_squeeze_le hw
  rw [ht, List.length_append, List.length_singleton] at hl
  omega

/-- And so would the second of two in a row. -/
theorem not_spaces_isInfix_squeeze (s : Text) : ¬ [' ', ' '] <:+: squeeze s := by
  rintro ⟨a, b, h⟩
  have hw : words (a ++ ' ' :: b) = words s := by
    rw [← words_squeeze s, ← h, List.append_assoc, List.cons_append, List.cons_append,
      List.nil_append, words_append_cons, words_append_cons, words_cons]
  have hl := length_squeeze_le hw
  rw [← h] at hl
  simp only [List.length_append, List.length_cons, List.length_nil] at hl
  omega

/--
Every text has its words, and squeezing keeps them: it leaves no space at the ends and no two in a
row, and all other characters as they are. A squeezed text is squeezed to itself, and texts are
squeezed to the same if and only if they have the same words.
-/
theorem squeeze_keeps_words :
    (∀ s, ∃! ws, Parted s ws) ∧
    (∀ s, (squeeze s).head? ≠ some ' ' ∧ (squeeze s).getLast? ≠ some ' ' ∧
      ¬ [' ', ' '] <:+: squeeze s) ∧
    (∀ s ws, Parted (squeeze s) ws ↔ Parted s ws) ∧
    (∀ s, (squeeze s).filter (· ≠ ' ') = s.filter (· ≠ ' ')) ∧
    (∀ s, squeeze (squeeze s) = squeeze s) ∧
    ∀ s t, squeeze s = squeeze t ↔ ∀ ws, Parted s ws ↔ Parted t ws := by
  refine ⟨fun s => ⟨words s, parted_iff.mpr rfl, fun ws h => h.words_eq.symm⟩,
    fun s => ⟨head?_squeeze_ne s, getLast?_squeeze_ne s, not_spaces_isInfix_squeeze s⟩,
    fun s ws => ?_, filter_squeeze, squeeze_squeeze, fun s t => ?_⟩
  · rw [parted_iff, parted_iff, words_squeeze]
  · rw [squeeze_eq_iff]
    constructor
    · intro h ws
      rw [parted_iff, parted_iff, h]
    · exact fun h => (parted_iff.mp ((h (words t)).mpr (parted_iff.mpr rfl)))

/-- White space of other kinds is part of a word. -/
example : squeeze "  a b\t  \u00a0 c ".toList = "a b\t \u00a0 c".toList := by
  decide

end FloatCases.Text
