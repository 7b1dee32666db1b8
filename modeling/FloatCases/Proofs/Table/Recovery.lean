import FloatCases.Proofs.Line.Recognition
import FloatCases.Proofs.Literal.Value
import FloatCases.Proofs.Table.Columns
import FloatCases.Proofs.Text.Words

/-!
What a row tells of its test case. Main statement: the words of a row are the fields of a test case
that was read from a line, and its comment stands behind them, so equal tables are tables of test
cases that are equal up to the spaces of comments.
-/
namespace FloatCases

variable {f : FloatFormat} {modes : ModeSet} {line s s' : Text} {l : Layout} {t t' : Testcase}
  {ts ts' : List Testcase} {ws : List Nat} {row : List Text}

/-- A test case that a line can stand for. -/
def Testcase.IsRead (t : Testcase) : Prop :=
  ∃ f modes line, Line.read f modes line = .ok (.testcase t)

/-- A test case with the runs of spaces in its comment squeezed. -/
def Testcase.squeezed (t : Testcase) : Testcase :=
  { t with comment := t.comment.map Text.squeeze }

/-- The literals of a test case have no spaces, and its comment has a last word. -/
structure Testcase.Plain (t : Testcase) : Prop where
  input : ' ' ∉ t.input
  output : ' ' ∉ t.output
  errorBound : ' ' ∉ t.errorBound
  comment : ∀ s ∈ t.comment, s ≠ [] ∧ Text.Stops Text.isBlank s.reverse

theorem RoundingMode.name_injective : Function.Injective name := fun m m' h =>
  Option.some.inj (by rw [← ofName?_name m, h, ofName?_name])

theorem Literal.space_not_mem_of_canonicalize (h : Literal.canonicalize f s = .ok s') : ' ' ∉ s' :=
  fun hs => absurd (Literal.isCanonicalChar_of_canonicalize h ' ' hs) (by decide)

theorem FlagSet.space_not_mem_display (x : FlagSet) : ' ' ∉ x.display := by
  intro h
  rcases mem_display h with h | h <;> exact absurd h (by decide)

/-- The comment of a trimmed line does not end in white space. -/
theorem Layout.stops_comment (h : l.text = Text.trim line) :
    ∀ s ∈ Remark.comment? l.remark, s ≠ [] ∧ Text.Stops Text.isBlank s.reverse := by
  intro s hs
  obtain ⟨hs, hne⟩ := Option.filter_eq_some_iff.mp hs
  obtain ⟨r, hr, rfl⟩ := Option.map_eq_some_iff.mp hs
  have hl : Text.Stops Text.isBlank l.text.reverse := h ▸ Text.stops_reverse_trim line
  have ht := Text.stops_reverse_of_append hl
  rw [hr, Remark.text, ← List.append_assoc] at ht
  exact ⟨by simpa using hne, Text.stops_reverse_of_append ht⟩

theorem Testcase.IsRead.plain (h : t.IsRead) : t.Plain := by
  obtain ⟨f, modes, line, hr⟩ := h
  obtain ⟨-, l, hl, hs⟩ := Line.read_eq_testcase_iff.mp hr
  exact ⟨Literal.space_not_mem_of_canonicalize hs.input,
    Literal.space_not_mem_of_canonicalize hs.output,
    Literal.space_not_mem_of_canonicalize hs.errorBound, hs.comment ▸ Layout.stops_comment hl⟩

namespace Table

/-- The words of a row up to the closing brace. -/
def fieldWords (t : Testcase) : List Text :=
  [".\x7b".toList, t.mode.name ++ [','], t.input ++ [','], t.output ++ [','], t.errorBound ++ [','],
    t.flags.display, "\x7d,".toList]

/-- What stands behind the closing brace. -/
def noted : Option Text → Text
  | none => []
  | some s => " // ".toList ++ Text.squeeze s

theorem words_leading (h : Fits ws row) (s : Text) :
    Text.words (leading ws row ++ s) = row.flatMap Text.words ++ Text.words s := by
  induction h with
  | nil => rfl
  | @cons w c ws row _ _ ih =>
    have he : leading (w :: ws) (c :: row) ++ s =
        (c ++ List.replicate (w - c.length) ' ') ++ ' ' :: (leading ws row ++ s) := by
      simp [leading_cons]
    rw [he, Text.words_append_cons, Text.words_append_replicate, ih, List.flatMap_cons,
      List.append_assoc]

theorem words_signed (h : ' ' ∉ s) : Text.words (signed s) = [s ++ [',']] := by
  have hw : Text.words (s ++ [',']) = [s ++ [',']] :=
    Text.words_of_not_mem (by simp) (by simpa using h)
  unfold signed
  split
  · exact hw
  · exact (Text.words_cons _).trans hw

theorem words_front (ht : t ∈ ts) (h : t.Plain) :
    Text.words (front ts t ++ "\x7d,".toList) = fieldWords t := by
  have hmode : Text.words (t.mode.name ++ [',']) = [t.mode.name ++ [',']] := by
    cases t.mode <;> rfl
  have hflags : Text.words t.flags.display = [t.flags.display] :=
    Text.words_of_not_mem t.flags.display_ne_nil t.flags.space_not_mem_display
  have hbrace : Text.words ".\x7b".toList = [".\x7b".toList] := rfl
  rw [front, words_leading (fits_front ht)]
  simp only [cells, List.take_succ_cons, List.take_zero, List.flatMap_cons, List.flatMap_nil, hmode,
    hflags, hbrace, words_signed h.input, words_signed h.output, words_signed h.errorBound]
  rfl

/-- Nothing is cut off a comment that has a last word. -/
theorem remark_eq_noted (h : t.Plain) : remark t.comment = noted t.comment := by
  cases hc : t.comment with
  | none => rfl
  | some s =>
    obtain ⟨hne, hs⟩ := h.comment s hc
    obtain ⟨hq, hqs⟩ := Text.stops_reverse_squeeze hne hs
    have ht : Text.Stops Text.isBlank ("// ".toList ++ Text.squeeze s).reverse := by
      rw [List.reverse_append]
      exact hqs.append_of_ne_nil (by simpa using hq)
    rw [remark, commentCell, Text.trimEnd_eq_self ht]
    rfl

/-- The words of a row are the fields, and the comment stands behind them as it is squeezed. -/
structure Tells (line : Text) (t : Testcase) : Prop where
  fields : fieldWords t <+: Text.words line
  rest : ∃ head, line = head ++ "\x7d,".toList ++ noted t.comment ∧
    Text.words (head ++ "\x7d,".toList) = fieldWords t

theorem words_append_noted (s : Text) (comment : Option Text) :
    Text.words (s ++ noted comment) =
      Text.words s ++ (comment.map fun c => "//".toList :: Text.words c).getD [] := by
  cases comment with
  | none => simp [noted]
  | some c =>
    have hn : noted (some c) = ' ' :: ("//".toList ++ ' ' :: Text.squeeze c) := rfl
    have hw : Text.words "//".toList = ["//".toList] := rfl
    rw [hn, Text.words_append_cons, Text.words_append_cons, Text.words_squeeze, hw]
    rfl

theorem Tells.words_eq (h : Tells line t) :
    Text.words line =
      fieldWords t ++ (t.comment.map fun c => "//".toList :: Text.words c).getD [] := by
  obtain ⟨head, he, hw⟩ := h.rest
  rw [he, words_append_noted, hw]

theorem tells_rows (h : ∀ t ∈ ts, t.IsRead) : List.Forall₂ Tells (rows ts) ts := by
  rw [rows_eq, List.forall₂_map_left_iff]
  refine List.forall₂_same.mpr fun t ht => ?_
  have hp := (h t ht).plain
  have hw := words_front ht hp
  rw [remark_eq_noted hp, ← List.append_assoc]
  exact ⟨by rw [words_append_noted, hw]; exact List.prefix_append _ _, front ts t, rfl, hw⟩

theorem fieldWords_inj (h : fieldWords t = fieldWords t') :
    t.mode = t'.mode ∧ t.input = t'.input ∧ t.output = t'.output ∧
      t.errorBound = t'.errorBound ∧ t.flags = t'.flags := by
  simp only [fieldWords, List.cons.injEq, List.append_cancel_right_eq, and_true, true_and] at h
  obtain ⟨hm, hi, ho, he, hx⟩ := h
  exact ⟨RoundingMode.name_injective hm, hi, ho, he, FlagSet.display_injective hx⟩

/-- Test cases with the same row are equal up to the spaces of their comments. -/
theorem Tells.squeezed_eq (h : Tells line t) (h' : Tells line t') :
    t.squeezed = t'.squeezed := by
  have hw := h.words_eq.symm.trans h'.words_eq
  obtain ⟨hf, hc⟩ := List.append_inj hw rfl
  obtain ⟨hm, hi, ho, he, hx⟩ := fieldWords_inj hf
  have hs : t.comment.map Text.squeeze = t'.comment.map Text.squeeze := by
    cases hr : t.comment <;> cases hr' : t'.comment <;> simp_all [Text.squeeze]
  rw [Testcase.squeezed, Testcase.squeezed, hm, hi, ho, he, hx, hs]

theorem map_squeezed_eq {lines : List Text} (h : List.Forall₂ Tells lines ts)
    (h' : List.Forall₂ Tells lines ts') :
    ts.map Testcase.squeezed = ts'.map Testcase.squeezed := by
  induction h generalizing ts' with
  | nil =>
    cases h'
    rfl
  | cons ht _ ih =>
    cases h' with
    | cons ht' hts' => rw [List.map_cons, List.map_cons, ht.squeezed_eq ht', ih hts']

/--
The words of a row are the fields of its test case, and behind the closing brace stands the
comment with its runs of spaces squeezed, or nothing. So the rows determine the test cases, apart
from the number of spaces in their comments.
-/
theorem rows_recover (hts : ∀ t ∈ ts, t.IsRead) :
    List.Forall₂ Tells (rows ts) ts ∧
      ∀ ts' : List Testcase, (∀ t ∈ ts', t.IsRead) → rows ts = rows ts' →
        ts.map Testcase.squeezed = ts'.map Testcase.squeezed := by
  refine ⟨tells_rows hts, fun ts' hts' h => map_squeezed_eq (tells_rows hts) ?_⟩
  rw [h]
  exact tells_rows hts'

/-- Two comments that differ in their spaces, with other white space at the start and inside. -/
theorem rows_recover_spaced :
    let t : Testcase := ⟨.nearest, "1".toList, "-0x1.800000p+2".toList, "0".toList,
      .union (.only .inexact) .empty, some "\u00a0a   b\t-".toList⟩
    let t' : Testcase := { t with comment := some "\u00a0a b\t-".toList }
    t.IsRead ∧ t'.IsRead ∧ rows [t] = rows [t'] ∧
      List.Forall₂ Tells [".\x7b RN,  1, -0x1.800000p+2,  0, INEXACT \x7d, // \u00a0a b\t-".toList]
        [t] ∧
      [t].map Testcase.squeezed = [t'].map Testcase.squeezed := by
  intro t t'
  have ht : t.IsRead :=
    ⟨.f32, .all, "T(RN,0x1p+0,-0x1.8p+2,0x0p+0,INEXACT) // \u00a0a   b\t- ".toList,
      by decide +kernel⟩
  have ht' : t'.IsRead :=
    ⟨.f32, .all, "T(RN,0x1p+0,-0x1.8p+2,0x0p+0,INEXACT)//\u00a0a b\t-".toList, by decide +kernel⟩
  have hr : rows [t] = rows [t'] := by decide +kernel
  have he : rows [t] =
      [".\x7b RN,  1, -0x1.800000p+2,  0, INEXACT \x7d, // \u00a0a b\t-".toList] := by
    decide +kernel
  have hts : ∀ u ∈ [t], u.IsRead := List.forall_mem_singleton.mpr ht
  obtain ⟨htells, hsame⟩ := rows_recover hts
  exact ⟨ht, ht', hr, he ▸ htells, hsame [t'] (List.forall_mem_singleton.mpr ht') hr⟩

end Table
end FloatCases
