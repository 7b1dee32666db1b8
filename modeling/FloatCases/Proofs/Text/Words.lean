import FloatCases.Proofs.Text.Pieces
import FloatCases.Proofs.Text.Trimming

/-!
The words of texts. Main statements: a space parts a text into its words, a squeezed text has the
same words, and it ends with white space only if the text does.
-/
namespace FloatCases.Text

variable {s t w : Text}

/-- A space parts the words of a text. -/
theorem words_append_cons (s t : Text) : words (s ++ ' ' :: t) = words s ++ words t := by
  rw [words, List.splitOn_append_cons_self, List.filter_append]
  rfl

theorem words_cons (t : Text) : words (' ' :: t) = words t :=
  words_append_cons [] t

theorem words_replicate (n : Nat) : words (List.replicate n ' ') = [] := by
  induction n with
  | zero => rfl
  | succ n ih => rw [List.replicate_succ, words_cons, ih]

theorem words_append_replicate (s : Text) (n : Nat) :
    words (s ++ List.replicate n ' ') = words s := by
  cases n with
  | zero => rw [List.replicate_zero, List.append_nil]
  | succ n => rw [List.replicate_succ, words_append_cons, words_replicate, List.append_nil]

/-- A text without a space is one word. -/
theorem words_of_not_mem (hne : w ≠ []) (hw : ' ' ∉ w) : words w = [w] := by
  rw [words, List.splitOn_eq_singleton hw]
  simp [hne]

theorem mem_words (h : w ∈ words s) : w ≠ [] ∧ ' ' ∉ w := by
  obtain ⟨hw, hne⟩ := List.mem_filter.mp h
  exact ⟨by simpa using hne, not_mem_of_mem_splitOn hw⟩

/-- Words with a space between each two are the words of what they are joined to. -/
theorem words_intercalate {ws : List Text} (h : ∀ w ∈ ws, w ≠ [] ∧ ' ' ∉ w) :
    words (List.intercalate [' '] ws) = ws := by
  by_cases hws : ws = []
  · rw [hws]
    rfl
  · rw [words, List.splitOn_intercalate ' ' (fun w hw => (h w hw).2) hws]
    exact List.filter_eq_self.mpr fun w hw => by simpa using (h w hw).1

theorem words_squeeze (s : Text) : words (squeeze s) = words s :=
  words_intercalate fun _ => mem_words

/-- The last word of a text that does not end in a space is its end. -/
theorem exists_words_eq (hs : s ≠ []) (hlast : s.getLast? ≠ some ' ') :
    ∃ a w ws, s = a ++ w ∧ w ≠ [] ∧ words s = ws ++ [w] := by
  by_cases hm : ' ' ∈ s
  · obtain ⟨b, a, hr, hb⟩ := List.eq_append_cons_of_mem (List.mem_reverse.mpr hm)
    have he : s = a.reverse ++ ' ' :: b.reverse := by simpa using congrArg List.reverse hr
    have hne : b.reverse ≠ [] := by
      intro h
      rw [he, h] at hlast
      simp at hlast
    have hw : words b.reverse = [b.reverse] := words_of_not_mem hne (by simpa using hb)
    exact ⟨a.reverse ++ [' '], b.reverse, words a.reverse, by simp [he], hne,
      by rw [he, words_append_cons, hw]⟩
  · exact ⟨[], s, [], rfl, hs, words_of_not_mem hs hm⟩

/-- A text that does not end in white space keeps its last character. -/
theorem stops_reverse_squeeze (hs : s ≠ []) (h : Stops isBlank s.reverse) :
    squeeze s ≠ [] ∧ Stops isBlank (squeeze s).reverse := by
  have hlast : s.getLast? ≠ some ' ' := fun hl => by
    have hb := h ' ' (by rw [List.head?_reverse]; exact hl)
    exact absurd hb (by decide)
  obtain ⟨a, w, ws, he, hne, hw⟩ := exists_words_eq hs hlast
  have hq : squeeze s = ws.flatMap (· ++ [' ']) ++ w := by
    rw [squeeze, hw, intercalate_append_cons, List.intercalate_singleton]
  have hr : Stops isBlank w.reverse := stops_reverse_of_append (he ▸ h)
  rw [hq, List.reverse_append]
  exact ⟨List.append_ne_nil_of_right_ne_nil _ hne, hr.append_of_ne_nil (by simpa using hne)⟩

end FloatCases.Text
