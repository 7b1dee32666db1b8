import FloatCases.Proofs.Report.Marking
import FloatCases.Proofs.Report.Wording

/-!
The colours of a report. Main statement: a report with colours is the report without them once the
commands that set a colour are deleted, if neither the line nor the name of the file holds an escape
character.
-/
namespace FloatCases

variable {c : Char} {s t code : Text}

namespace Text

/-- Whether a character can stand in the code of a colour. -/
def isCodeChar (c : Char) : Bool :=
  c.isDigit || c = ';'

/-- What follows the command that sets a colour at the head of a text, if there is one. -/
def afterColour? : Text → Option Text
  | '\x1b' :: '[' :: s =>
    match s.dropWhile isCodeChar with
    | 'm' :: rest => some rest
    | _ => none
  | _ => none

theorem afterColour?_length_lt (h : afterColour? s = some t) : t.length < s.length := by
  unfold afterColour? at h
  split at h
  · rename_i s
    have hle := (List.dropWhile_sublist (l := s) isCodeChar).length_le
    split at h
    · rename_i rest hs
      obtain rfl := Option.some.inj h
      rw [hs] at hle
      simp only [List.length_cons] at hle ⊢
      omega
    · nomatch h
  · nomatch h

/-- A text without the commands that set a colour. -/
def dropColours : Text → Text
  | [] => []
  | c :: s =>
    match _ : afterColour? (c :: s) with
    | some rest => dropColours rest
    | none => c :: dropColours s
termination_by s => s.length
decreasing_by
  · exact afterColour?_length_lt ‹_›
  · simp

theorem dropColours_of_some (h : afterColour? s = some t) : dropColours s = dropColours t := by
  cases s with
  | nil => nomatch h
  | cons c s =>
    rw [dropColours]
    split
    · rename_i rest hr
      rw [Option.some.inj (hr.symm.trans h)]
    · rename_i hn
      exact nomatch hn.symm.trans h

theorem dropColours_cons (hc : c ≠ Piece.escape) (s : Text) :
    dropColours (c :: s) = c :: dropColours s := by
  have hn : afterColour? (c :: s) = none := by
    unfold afterColour?
    split
    · rename_i h
      exact absurd (List.cons.inj h).1 hc
    · rfl
  rw [dropColours]
  split
  · rename_i hr
    exact nomatch hn.symm.trans hr
  · rfl

/-- What has no escape character in it stays as it is. -/
theorem dropColours_append (hs : Piece.escape ∉ s) (t : Text) :
    dropColours (s ++ t) = s ++ dropColours t := by
  induction s with
  | nil => rfl
  | cons c s ih =>
    obtain ⟨hc, hs⟩ := not_or.mp fun h => hs (List.mem_cons.mpr h)
    rw [List.cons_append, dropColours_cons (Ne.symm hc), ih hs, List.cons_append]

/-- A command that sets a colour is deleted. -/
theorem dropColours_command (hcode : ∀ c ∈ code, isCodeChar c = true) (t : Text) :
    dropColours (Piece.command code ++ t) = dropColours t := by
  have hm : Stops isCodeChar ('m' :: t) := stops_cons.mpr (by decide)
  have ht : Piece.command code ++ t = '\x1b' :: '[' :: (code ++ 'm' :: t) := by
    simp [Piece.command, Piece.escape]
  have ha : afterColour? ('\x1b' :: '[' :: (code ++ 'm' :: t)) = some t := by
    simp only [afterColour?, dropWhile_run hcode hm]
  rw [ht, dropColours_of_some ha]

/-- Texts in a row lose their colours one by one. -/
theorem dropColours_flatMap {α : Type} {xs : List α} {f g : α → Text}
    (h : ∀ x ∈ xs, ∀ t, dropColours (f x ++ t) = g x ++ dropColours t) (t : Text) :
    dropColours (xs.flatMap f ++ t) = xs.flatMap g ++ dropColours t := by
  induction xs with
  | nil => rfl
  | cons x xs ih =>
    obtain ⟨hx, hxs⟩ := List.forall_mem_cons.mp h
    rw [List.flatMap_cons, List.append_assoc, hx, ih hxs, List.flatMap_cons, List.append_assoc]

theorem escape_not_mem_ofNat (n : Nat) : Piece.escape ∉ ofNat n :=
  fun h => absurd (isDigit_of_mem_ofNat h) (by decide)

end Text

theorem Ink.isCodeChar_of_mem_code? {ink : Ink} (h : ink.code? = some code) :
    ∀ c ∈ code, Text.isCodeChar c = true := by
  cases ink with
  | bare => nomatch h
  | _ =>
    obtain rfl := Option.some.inj h
    exact List.all_eq_true.mp rfl

/-- A piece with a colour is the piece without it and two commands. -/
theorem Piece.dropColours_render_append {p : Piece} (h : Piece.escape ∉ p.text) (t : Text) :
    Text.dropColours (p.render true ++ t) = p.render false ++ Text.dropColours t := by
  have hzero : ∀ c ∈ ['0'], Text.isCodeChar c = true := List.all_eq_true.mp rfl
  simp only [render, if_true, Bool.false_eq_true, if_false, coloured]
  cases hc : p.ink.code? with
  | none => exact Text.dropColours_append h t
  | some code =>
    simp only [List.append_assoc]
    rw [Text.dropColours_command (Ink.isCodeChar_of_mem_code? hc), Text.dropColours_append h,
      Text.dropColours_command hzero]

namespace Report

variable {row row' : Row} {p : Piece} {w : Window} {r : SourceRow} {x : LineFault} {name : Text}

/-- A line of a report without commands to the terminal, apart from its colours. -/
def IsPlain (row : Row) : Prop :=
  ∀ p ∈ row, Piece.escape ∉ p.text

@[simp]
theorem isPlain_nil : IsPlain [] :=
  fun _ hp => absurd hp List.not_mem_nil

@[simp]
theorem isPlain_cons : IsPlain (p :: row) ↔ Piece.escape ∉ p.text ∧ IsPlain row :=
  List.forall_mem_cons

@[simp]
theorem isPlain_append : IsPlain (row ++ row') ↔ IsPlain row ∧ IsPlain row' :=
  List.forall_mem_append

theorem isPlain_flatMap {α : Type} {xs : List α} {f : α → Row} (h : ∀ x ∈ xs, IsPlain (f x)) :
    IsPlain (xs.flatMap f) := by
  intro p hp
  obtain ⟨x, hx, hp⟩ := List.mem_flatMap.mp hp
  exact h x hx p hp

theorem isPlain_replicate {n : Nat} (h : Piece.escape ∉ p.text) : IsPlain (List.replicate n p) :=
  fun _ hq => (List.mem_replicate.mp hq).2 ▸ h

/-- A piece for each character of a text. -/
theorem isPlain_map (ink : Ink) (h : Piece.escape ∉ s) :
    IsPlain (s.map fun c => ⟨ink, [c]⟩) := by
  intro p hp
  obtain ⟨c, hc, rfl⟩ := List.mem_map.mp hp
  exact fun he => h (List.mem_singleton.mp he ▸ hc)

theorem isPlain_frame (h : Piece.escape ∉ s) : IsPlain (frame s) :=
  isPlain_map .margin h

theorem isPlain_strokes (h : Piece.escape ∉ s) : IsPlain (strokes s) :=
  isPlain_map .blame h

@[simp]
theorem escape_not_mem_gap (n : Nat) : Piece.escape ∉ (gap n).text := by
  simp [gap, Piece.bare, Piece.escape]

theorem isPlain_cell (ink : Ink) {first tail : Char} (hf : first ≠ Piece.escape)
    (ht : tail ≠ Piece.escape) (n : Nat) : IsPlain (cell ink first tail n) := by
  cases n with
  | zero => exact isPlain_nil
  | succ n =>
    refine isPlain_cons.mpr ⟨by simpa using hf.symm, isPlain_replicate (by simpa using ht.symm)⟩

theorem isPlain_sideWith (w : Window) {bar : Char} (h : bar ≠ Piece.escape) :
    IsPlain (sideWith w bar) := by
  have hs : Piece.escape ≠ ' ' := by decide
  simp [sideWith, Piece.bare, hs, h.symm]

@[simp]
theorem isPlain_side (w : Window) : IsPlain (side w) :=
  isPlain_sideWith w (by decide)

theorem isPlain_upright {bar : Char} (h : bar ≠ Piece.escape) : IsPlain (upright bar) := by
  simp [upright, h.symm]

/-! The lines of a report. -/

theorem escape_not_mem_of_all (h : s.all (fun c => c ≠ Piece.escape) = true) :
    Piece.escape ∉ s := by
  intro hm
  simpa using List.all_eq_true.mp h Piece.escape hm

theorem escape_not_mem_message {k : Cause} (h : Piece.escape ∉ k.token) :
    Piece.escape ∉ k.message := by
  have hq : Piece.escape ∉ Text.quoted k.token := by
    have hs : Piece.escape ≠ '\'' := by decide
    simp [Text.quoted, hs, h]
  cases k with
  | malformedLiteral | unknownMode | unknownFlag =>
    exact List.not_mem_append (by decide) hq

theorem isPlain_titleRow {k : Cause} (h : Piece.escape ∉ k.token) : IsPlain (titleRow k) := by
  have hm := escape_not_mem_message h
  have hs : Piece.escape ≠ ' ' := by decide
  have hc : Piece.escape ∉ ['['] ++ k.code ++ "] Error:".toList :=
    escape_not_mem_of_all (by cases k <;> rfl)
  exact isPlain_cons.mpr ⟨hc, isPlain_cons.mpr ⟨by simp [Piece.bare, hs, hm], isPlain_nil⟩⟩

theorem isPlain_placeRow (w : Window) (n : Nat) (h : Piece.escape ∉ name) :
    IsPlain (placeRow w name n) := by
  have hf : IsPlain (frame "╭─[".toList) := isPlain_frame (by decide)
  have hf' : IsPlain (frame "]".toList) := isPlain_frame (by decide)
  have hs : Piece.escape ≠ ' ' ∧ Piece.escape ≠ ':' := by decide
  simp only [placeRow, isPlain_append, isPlain_cons, escape_not_mem_gap, hf, hf', not_false_iff,
    true_and, and_true]
  simp [Piece.bare, h, hs, Text.escape_not_mem_ofNat]

theorem isPlain_spacerRow (w : Window) : IsPlain (spacerRow w) :=
  isPlain_cons.mpr ⟨escape_not_mem_gap _, isPlain_frame (by decide)⟩

theorem isPlain_sourcePieces (w : Window) (r : SourceRow) {c : Char} (h : c ≠ Piece.escape)
    (col : Nat) : IsPlain (sourcePieces w r c col) := by
  have hs : Piece.escape ≠ ' ' := by decide
  unfold sourcePieces
  cases Text.isBlank c with
  | true => exact isPlain_replicate (by simpa using hs)
  | false => simpa using h.symm

theorem isPlain_sourceRow (w : Window) {lead : Row} (hr : Piece.escape ∉ r.text)
    (hl : IsPlain lead) : IsPlain (sourceRow w r lead) := by
  have hs : Piece.escape ≠ ' ' ∧ Piece.escape ≠ '│' := by decide
  have hn : IsPlain (numberPieces w r) := by
    simp [numberPieces, Piece.bare, List.leftpad, hs, Text.escape_not_mem_ofNat]
  refine isPlain_append.mpr ⟨isPlain_append.mpr ⟨hn, hl⟩, isPlain_flatMap ?_⟩
  rintro ⟨c, col⟩ hx
  refine isPlain_sourcePieces w r (fun he => hr ?_) col
  exact Text.mem_of_mem_trimEnd (he ▸ List.fst_mem_of_mem_zipIdx hx)

theorem isPlain_underlineRow (w : Window) : IsPlain (underlineRow w) := by
  refine isPlain_append.mpr ⟨isPlain_side w, isPlain_flatMap fun col _ => ?_⟩
  unfold underline
  split
  · split <;> exact isPlain_cell _ (by decide) (by decide) _
  · split <;> exact isPlain_cell _ (by decide) (by decide) _

theorem isPlain_messagePiece {k : Cause} (h : Piece.escape ∉ k.token) :
    IsPlain [messagePiece k] := by
  have hs : Piece.escape ≠ ' ' := by decide
  simp [messagePiece, Piece.bare, hs, escape_not_mem_message h]

theorem isPlain_messageRow (w : Window) {k : Cause} (h : Piece.escape ∉ k.token) :
    IsPlain (messageRow w k) := by
  refine isPlain_append.mpr ⟨isPlain_append.mpr ⟨isPlain_side w, ?_⟩, isPlain_messagePiece h⟩
  refine isPlain_flatMap fun col _ => ?_
  unfold arrow
  split
  · exact isPlain_cell _ (by decide) (by decide) _
  · split <;> exact isPlain_cell _ (by decide) (by decide) _

theorem isPlain_omittedRows (w : Window) : ∀ row ∈ omittedRows w, IsPlain row := by
  unfold omittedRows
  split
  · exact List.forall_mem_singleton.mpr
      (isPlain_append.mpr ⟨isPlain_sideWith w (by decide), isPlain_upright (by decide)⟩)
  · simp

theorem isPlain_hangingRow (w : Window) : IsPlain (hangingRow w) := by
  refine isPlain_append.mpr ⟨isPlain_append.mpr ⟨isPlain_side w, isPlain_upright (by decide)⟩, ?_⟩
  exact isPlain_flatMap fun col _ => isPlain_cell _ (by decide) (by decide) _

theorem isPlain_splitMessageRow (w : Window) {k : Cause} (h : Piece.escape ∉ k.token) :
    IsPlain (splitMessageRow w k) := by
  refine isPlain_append.mpr ⟨isPlain_append.mpr ⟨isPlain_append.mpr ⟨isPlain_side w, ?_⟩, ?_⟩,
    isPlain_messagePiece h⟩
  · exact isPlain_strokes (by decide)
  · exact isPlain_flatMap fun col _ => isPlain_cell _ (by decide) (by decide) _

theorem isPlain_helpSide (w : Window) : IsPlain (helpSide w) := by
  refine isPlain_append.mpr ⟨isPlain_side w, ?_⟩
  split
  · exact isPlain_nil
  · split
    · exact isPlain_upright (by decide)
    · simp

theorem isPlain_helpRow (w : Window) (k : Cause) : IsPlain (helpRow w k) := by
  have hk : Piece.escape ∉ ": ".toList ++ k.help := escape_not_mem_of_all (by cases k <;> rfl)
  have hh : Piece.escape ∉ "Help".toList := by decide
  simp only [helpRow, isPlain_append, isPlain_cons, isPlain_helpSide w, Piece.bare, hh, hk,
    not_false_iff, isPlain_nil, and_true]

theorem isPlain_closingRow (w : Window) : IsPlain (closingRow w) := by
  have hs : Piece.escape ≠ '─' ∧ Piece.escape ≠ '╯' := by decide
  simp [closingRow, hs]

theorem isPlain_plainRows {w : Window} {k : Cause} (hf : Piece.escape ∉ w.first.text)
    (hk : Piece.escape ∉ k.token) : ∀ row ∈ plainRows w k, IsPlain row :=
  List.forall_mem_cons.mpr ⟨isPlain_sourceRow w hf isPlain_nil,
    List.forall_mem_cons.mpr ⟨isPlain_underlineRow w,
      List.forall_mem_singleton.mpr (isPlain_messageRow w hk)⟩⟩

theorem isPlain_splitRows {w : Window} {k : Cause} (hf : Piece.escape ∉ w.first.text)
    (hl : Piece.escape ∉ w.last.text) (hk : Piece.escape ∉ k.token) :
    ∀ row ∈ splitRows w k, IsPlain row := by
  refine List.forall_mem_append.mpr ⟨List.forall_mem_cons.mpr ⟨?_, isPlain_omittedRows w⟩, ?_⟩
  · exact isPlain_sourceRow w hf (isPlain_strokes (by decide))
  · exact List.forall_mem_cons.mpr ⟨isPlain_sourceRow w hl (isPlain_strokes (by decide)),
      List.forall_mem_cons.mpr ⟨isPlain_hangingRow w,
        List.forall_mem_singleton.mpr (isPlain_splitMessageRow w hk)⟩⟩

/-- A report holds no command to the terminal but those of its colours. -/
theorem isPlain_of_mem_rows (ht : Piece.escape ∉ x.fault.text)
    (hk : Piece.escape ∉ x.fault.cause.token) (hn : Piece.escape ∉ name) :
    ∀ row ∈ rows x name, IsPlain row := by
  let w := Window.ofFault x.fault
  obtain ⟨⟨_, hfirst⟩, ⟨_, hlast⟩⟩ := Window.exists_find_eq x.fault
  have hf : Piece.escape ∉ w.first.text := fun h => ht (SourceRow.mem_of_mem_find (hfirst ▸ h))
  have hl : Piece.escape ∉ w.last.text := fun h => ht (SourceRow.mem_of_mem_find (hlast ▸ h))
  refine List.forall_mem_append.mpr ⟨List.forall_mem_append.mpr ⟨?_, ?_⟩, ?_⟩
  · exact List.forall_mem_cons.mpr ⟨isPlain_titleRow hk, List.forall_mem_cons.mpr
      ⟨isPlain_placeRow w x.line hn, List.forall_mem_singleton.mpr (isPlain_spacerRow w)⟩⟩
  · split
    · exact isPlain_splitRows hf hl hk
    · exact isPlain_plainRows hf hk
  · exact List.forall_mem_cons.mpr ⟨isPlain_helpSide w, List.forall_mem_cons.mpr
      ⟨isPlain_helpRow w x.fault.cause, List.forall_mem_singleton.mpr (isPlain_closingRow w)⟩⟩

theorem dropColours_row (h : IsPlain row) (t : Text) :
    Text.dropColours (row.flatMap (Piece.render true) ++ ['\n'] ++ t) =
      row.flatMap (Piece.render false) ++ ['\n'] ++ Text.dropColours t := by
  have hn : Piece.escape ∉ ['\n'] := by decide
  have hr := fun p hp t => Piece.dropColours_render_append (h p hp) t
  rw [List.append_assoc, Text.dropColours_flatMap hr, Text.dropColours_append hn,
    List.append_assoc]

theorem escape_not_mem_row (h : IsPlain row) :
    Piece.escape ∉ row.flatMap (Piece.render false) ++ ['\n'] := by
  intro hm
  rcases List.mem_append.mp hm with hm | hm
  · obtain ⟨p, hp, hc⟩ := List.mem_flatMap.mp hm
    exact h p hp hc
  · exact absurd hm (by decide)

/--
The report of a fault with colours is the report without them once the commands that set a colour
are deleted, and without colours there are no commands to the terminal at all, if the text, the
token to blame and the name of the file hold no escape character.
-/
theorem dropColours_render (ht : Piece.escape ∉ x.fault.text)
    (hk : Piece.escape ∉ x.fault.cause.token) (hn : Piece.escape ∉ name) :
    Text.dropColours (render true x name) = render false x name ∧
      Piece.escape ∉ render false x name := by
  have hplain := isPlain_of_mem_rows ht hk hn
  constructor
  · have h := Text.dropColours_flatMap (fun row hrow t => dropColours_row (hplain row hrow) t) []
    simpa [Text.dropColours, render] using h
  · intro hm
    obtain ⟨row, hrow, hc⟩ := List.mem_flatMap.mp hm
    exact escape_not_mem_row (hplain row hrow) hc

/-- An unknown flag that reads like the end of a command, before a tab and a wide character. -/
theorem dropColours_render_wide :
    let source := "T(RN, inf, inf, 0x0p+0, [31m\t|日)".toList
    let x : LineFault := ⟨1, .unknownFlag "[31m".toList, source, 24, 28⟩
    Conversion.convert ⟨none, .all, []⟩ source = .error x ∧
      Text.dropColours (render true x "日.h".toList) = render false x "日.h".toList ∧
      render true x "日.h".toList ≠ render false x "日.h".toList := by
  intro source x
  have h : Conversion.convert ⟨none, .all, []⟩ source = .error x :=
    Conversion.convert_eq_error_iff.mpr (by decide +kernel)
  have ht : Piece.escape ∉ x.fault.text := by decide +kernel
  have hn : Piece.escape ∉ "日.h".toList := by decide
  obtain ⟨hd, he⟩ := dropColours_render ht (by decide) hn
  have hc : Piece.escape ∈ render true x "日.h".toList := by decide +kernel
  exact ⟨h, hd, fun heq => he (heq ▸ hc)⟩

end Report
end FloatCases
