import FloatCases.Proofs.Report.Marking

/-!
The numbers of lines in a report: one in the place of a fault, and one beside the source. Main
statement: the place has the number of the line in the file, but the number beside the source is
that of the row in the text of the line alone, so the two are the same for faults in the first line
only.
-/
namespace FloatCases

variable {c : Char} {s t name source : Text} {rs : List Text} {k k' m n : Nat} {e : Fault}
  {x : LineFault} {o : Options}

namespace Text

theorem ofNat_injective : Function.Injective ofNat := by
  intro m n h
  calc
    m = Nat.ofDigitChars 10 (ofNat m) 0 := Nat.ofDigitChars_ten_toDigits.symm
    _ = Nat.ofDigitChars 10 (ofNat n) 0 := by rw [h]
    _ = n := Nat.ofDigitChars_ten_toDigits

/-- A number ends where there are no digits any more. -/
theorem ofNat_append_inj (hs : Stops Char.isDigit s) (ht : Stops Char.isDigit t)
    (h : ofNat m ++ s = ofNat n ++ t) : m = n :=
  ofNat_injective
    (run_append_inj (fun _ => isDigit_of_mem_ofNat) hs (fun _ => isDigit_of_mem_ofNat) ht h).1

/-- Spaces end where there are no spaces any more. -/
theorem spaces_append_inj (hs : Stops (· = ' ') s) (ht : Stops (· = ' ') t)
    (h : List.replicate k ' ' ++ s = List.replicate k' ' ' ++ t) : s = t := by
  have hk : ∀ k, ∀ c ∈ List.replicate k ' ', decide (c = ' ') = true := fun k c hc =>
    decide_eq_true (List.eq_of_mem_replicate hc)
  exact (run_append_inj (hk k) hs (hk k') ht h).2

theorem stops_spaces_ofNat (n : Nat) (s : Text) : Stops (· = ' ') (ofNat n ++ s) := by
  refine Stops.append Nat.toDigits_ne_nil fun c hc => decide_eq_false ?_
  rintro rfl
  exact absurd (isDigit_of_mem_ofNat hc) (by decide)

theorem not_mem_rowEnds_of_all (h : s.all (fun c => !rowEnds.contains c) = true) :
    ∀ c ∈ s, c ∉ rowEnds := by
  intro c hc
  simpa using List.all_eq_true.mp h c hc

/-- A text without line separators has no second row. -/
theorem rows_of_not_mem (h : ∀ c ∈ s, c ∉ rowEnds) :
    (rows s).headD [] = s ∧ (rows s).tail = [] := by
  induction s with
  | nil => exact ⟨rfl, rfl⟩
  | cons c s ih =>
    obtain ⟨hc, hs⟩ := List.forall_mem_cons.mp h
    obtain ⟨hhead, htail⟩ := ih hs
    rw [rows_cons_of_not_mem hc, htail, hhead]
    exact ⟨rfl, rfl⟩

end Text

theorem SourceRow.index_find (h : rs.tail = []) (n : Nat) : (find rs n).1.index = 0 := by
  match rs, h with
  | [], _ | [_], _ => rfl

/-- A part of a text without line separators is shown in the first row. -/
theorem Window.index_first (h : ∀ c ∈ e.text, c ∉ Text.rowEnds) : (ofFault e).first.index = 0 := by
  obtain ⟨⟨n, hn⟩, -⟩ := exists_find_eq e
  rw [← hn, SourceRow.index_find (Text.rows_of_not_mem h).2]

namespace Report

variable {row place code : Row}

/-- The place in a line of a report has a number of a line. -/
def PlaceShows (name : Text) (place : Row) (n : Nat) : Prop :=
  ∃ k col, text place = List.replicate k ' ' ++ "╭─[ ".toList ++ name ++ ':' :: Text.ofNat n ++
    ':' :: Text.ofNat col ++ " ]".toList

/-- What stands before the source in a line of a report has a number of a line. -/
def GutterShows (code : Row) (n : Nat) : Prop :=
  ∃ k rest, text code = List.replicate k ' ' ++ Text.ofNat n ++ " │ ".toList ++ rest

/-- A report has one number of a line in its place, and one before the first row of its source. -/
def Numbered (x : LineFault) (name : Text) (m n : Nat) : Prop :=
  ∃ title place spacer code below, rows x name = title :: place :: spacer :: code :: below ∧
    PlaceShows name place m ∧ GutterShows code n

theorem PlaceShows.unique (h : PlaceShows name place m) (h' : PlaceShows name place n) :
    m = n := by
  obtain ⟨k, col, h⟩ := h
  obtain ⟨k', col', h'⟩ := h'
  have hs := h.symm.trans h'
  simp only [List.append_assoc, List.cons_append] at hs
  have hframe : ∀ t, Text.Stops (· = ' ') ("╭─[ ".toList ++ t) := fun t =>
    Text.Stops.append_of_ne_nil (by simp [Text.Stops]) (by decide)
  have hname := List.append_cancel_left (Text.spaces_append_inj (hframe _) (hframe _) hs)
  have hn := (List.cons.inj (List.append_cancel_left hname)).2
  exact Text.ofNat_append_inj (Text.stops_cons.mpr (by decide)) (Text.stops_cons.mpr (by decide)) hn

theorem GutterShows.unique (h : GutterShows code m) (h' : GutterShows code n) : m = n := by
  obtain ⟨k, rest, h⟩ := h
  obtain ⟨k', rest', h'⟩ := h'
  have hs := h.symm.trans h'
  simp only [List.append_assoc] at hs
  have hn := Text.spaces_append_inj (Text.stops_spaces_ofNat m _) (Text.stops_spaces_ofNat n _) hs
  exact Text.ofNat_append_inj (Text.stops_cons.mpr (by decide)) (Text.stops_cons.mpr (by decide)) hn

theorem placeShows_placeRow (w : Window) (name : Text) (n : Nat) :
    PlaceShows name (placeRow w name n) (n + w.first.index) :=
  ⟨_, _, text_placeRow w name n⟩

theorem gutterShows_sourceRow (w : Window) (r : SourceRow) (lead : Row) :
    GutterShows (sourceRow w r lead) (r.index + 1) := by
  let digits := Text.ofNat (r.index + 1)
  have hn : text (numberPieces w r) =
      List.replicate (gutter w - digits.length + 1) ' ' ++ digits ++ " │ ".toList := by
    simp [text, numberPieces, Piece.bare, List.leftpad, List.replicate_succ, digits]
  exact ⟨_, _, by rw [sourceRow, List.append_assoc, text_append, hn]⟩

/-- A report starts with its title, the place, and a row of the source, whatever is drawn below. -/
theorem exists_rows_eq (x : LineFault) (name : Text) :
    let w := Window.ofFault x.fault
    ∃ lead below, rows x name = titleRow x.fault.cause :: placeRow w name x.line :: spacerRow w ::
      sourceRow w w.first lead :: below := by
  intro w
  simp only [rows]
  split
  · exact ⟨_, _, rfl⟩
  · exact ⟨_, _, rfl⟩

/-- The numbers that a report has are those of the line and of the row in its text. -/
theorem numbered_iff :
    Numbered x name m n ↔ m = x.line + (Window.ofFault x.fault).first.index ∧
      n = (Window.ofFault x.fault).first.index + 1 := by
  obtain ⟨lead, below, hrows⟩ := exists_rows_eq x name
  have hplace := placeShows_placeRow (Window.ofFault x.fault) name x.line
  have hcode := gutterShows_sourceRow (Window.ofFault x.fault) (Window.ofFault x.fault).first lead
  constructor
  · rintro ⟨_, _, _, _, _, h, hm, hn⟩
    simp only [hrows, List.cons.injEq] at h
    obtain ⟨-, rfl, -, rfl, -⟩ := h
    exact ⟨hm.unique hplace, hn.unique hcode⟩
  · rintro ⟨rfl, rfl⟩
    exact ⟨_, _, _, _, _, hrows, hplace, hcode⟩

/-- In a text without line separators the number beside the source is always one. -/
theorem numbered_iff_of_not_mem (h : ∀ c ∈ x.fault.text, c ∉ Text.rowEnds) :
    Numbered x name m n ↔ m = x.line ∧ n = 1 := by
  rw [numbered_iff, Window.index_first h, Nat.add_zero, Nat.zero_add]

/--
If a file is not converted, and the line that is refused has no line separator in it, then the
number in the place of the report is that of the line in the file, and the number beside the source
is one. So the two are the same if the first line is refused, and only then.
-/
theorem numbered_of_convert_error (h : Conversion.convert o source = .error x)
    (hs : ∀ c ∈ x.fault.text, c ∉ Text.rowEnds) (name : Text) :
    (∃ before line after, Text.lines source = before ++ line :: after ∧
      (∀ l ∈ before, ∃ kind, Line.read (Conversion.formatFor o source) o.modes l = .ok kind) ∧
      Line.read (Conversion.formatFor o source) o.modes line = .error x.fault ∧
      Numbered x name (before.length + 1) 1) ∧
    (∀ m n, Numbered x name m n → m = x.line ∧ n = 1) ∧
      ((∃ n, Numbered x name n n) ↔ x.line = 1) := by
  obtain ⟨before, line, after, hlines, hn, hb, hl⟩ :=
    Reading.fault_ofLines_eq_some_iff.mp (Conversion.convert_eq_error_iff.mp h)
  refine ⟨⟨before, line, after, hlines, hb, hl, ?_⟩,
    fun m n => (numbered_iff_of_not_mem hs).mp, ?_⟩
  · exact (numbered_iff_of_not_mem hs).mpr ⟨by omega, rfl⟩
  · constructor
    · rintro ⟨n, hn⟩
      obtain ⟨hline, hone⟩ := (numbered_iff_of_not_mem hs).mp hn
      exact hline.symm.trans hone
    · intro hline
      exact ⟨1, (numbered_iff_of_not_mem hs).mpr ⟨hline.symm, rfl⟩⟩

/-- An unknown mode in the second line of a file is placed in line 2 and shown as line 1. -/
theorem numbered_of_convert_error_second_line :
    let source := "// header\nT(XX, 0x1p+0, 0x1p+0, 0x1p+0, 0)\n".toList
    ∃ x, Conversion.convert ⟨none, .all, []⟩ source = .error x ∧ x.line = 2 ∧
      (∀ c ∈ x.fault.text, c ∉ Text.rowEnds) ∧ Numbered x "test.h".toList 2 1 ∧
      ¬ ∃ n, Numbered x "test.h".toList n n := by
  intro source
  let line := "T(XX, 0x1p+0, 0x1p+0, 0x1p+0, 0)".toList
  let x : LineFault := ⟨2, .unknownMode "XX".toList, line, 2, 4⟩
  have h : Conversion.convert ⟨none, .all, []⟩ source = .error x :=
    Conversion.convert_eq_error_iff.mpr (by decide +kernel)
  have hs : ∀ c ∈ x.fault.text, c ∉ Text.rowEnds := Text.not_mem_rowEnds_of_all (by decide +kernel)
  obtain ⟨⟨_, _, _, -, -, -, hn⟩, hm, hsame⟩ := numbered_of_convert_error h hs "test.h".toList
  obtain ⟨hline, -⟩ := hm _ _ hn
  rw [hline] at hn
  exact ⟨x, h, rfl, hs, hn, fun hn => absurd (hsame.mp hn) (by decide)⟩

/-- The two numbers in a report are not always that of the line. -/
theorem not_numbered_line :
    ¬ ∀ (o : Options) (source : Text) (x : LineFault) (name : Text),
      Conversion.convert o source = .error x → (∀ c ∈ x.fault.text, c ∉ Text.rowEnds) →
        Numbered x name x.line x.line := by
  intro hall
  let line := "T(XX, 0x1p+0, 0x1p+0, 0x1p+0, 0)".toList
  let x : LineFault := ⟨2, .unknownMode "XX".toList, line, 2, 4⟩
  have h : Conversion.convert ⟨none, .all, []⟩
      "// header\nT(XX, 0x1p+0, 0x1p+0, 0x1p+0, 0)\n".toList = .error x :=
    Conversion.convert_eq_error_iff.mpr (by decide +kernel)
  have hs : ∀ c ∈ x.fault.text, c ∉ Text.rowEnds := Text.not_mem_rowEnds_of_all (by decide +kernel)
  have hn := hall _ _ x "test.h".toList h hs
  exact absurd ((numbered_iff_of_not_mem hs).mp hn).2 (by decide)

end Report
end FloatCases
