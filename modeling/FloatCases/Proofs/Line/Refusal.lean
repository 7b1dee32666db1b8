import FloatCases.Proofs.Flags.Names
import FloatCases.Proofs.Line.Recognition
import FloatCases.Proofs.Statement.Places
import Mathlib.Data.List.Find

/-!
The lines that are refused. Main statement: a fault is about the first field of the line that is not
valid, names what is written there, and points at it; in a flag list it points at the first flag
that is written like the name it reports, and at the whole list if there is none.
-/
namespace FloatCases

variable {f : FloatFormat} {modes : ModeSet} {line text : Text} {l : Layout} {x : Field} {e : Fault}
  {s : Span} {st : Statement}

namespace Fault

/-- A fault points at a part of a line: it has its place, and the part is its snippet. -/
structure PointsAt (e : Fault) (s : Span) : Prop where
  start : e.start = s.start
  stop : e.stop = s.stop
  snippet : e.snippet = s.text

/-- The range of a fault is not empty, and it starts and ends between characters of the text. -/
def IsPlaced (e : Fault) : Prop :=
  e.snippet ≠ [] ∧ ∃ pre post, e.text = pre ++ e.snippet ++ post ∧
    e.start = Text.byteSize pre ∧ e.stop = Text.byteSize (pre ++ e.snippet)

theorem PointsAt.isPlaced (h : e.PointsAt s) (hs : s.LiesIn e.text) (hn : s.text ≠ []) :
    e.IsPlaced := by
  obtain ⟨pre, post, ht, hp⟩ := hs
  refine ⟨h.snippet ▸ hn, pre, post, ?_, h.start.trans hp, ?_⟩
  · rw [h.snippet, ht]
  · rw [h.stop, Span.stop, hp, h.snippet, Text.byteSize_append]

end Fault

/-- Checks in a row fail with the error of the first that fails. -/
theorem forM_eq_error_iff {α ε : Type} {g : α → Except ε Unit} {xs : List α} {e : ε} :
    forM xs g = .error e ↔ ∃ x, xs.find? (fun x => !(g x).isOk) = some x ∧ g x = .error e := by
  induction xs with
  | nil => simp [pure, Except.pure]
  | cons x xs ih =>
    rw [List.forM_cons]
    cases hx : g x with
    | error e' =>
      rw [List.find?_cons_of_pos (by simp [hx, Except.isOk, Except.toBool])]
      simp [hx, bind, Except.bind]
    | ok u =>
      rw [List.find?_cons_of_neg (by simp [hx, Except.isOk, Except.toBool]), ← ih]
      rfl

theorem map_eq_error_iff {ε α β : Type} {g : α → β} {r : Except ε α} {e : ε} :
    r.map g = .error e ↔ r = .error e := by
  cases r <;> simp [Except.map]

theorem isOk_map {ε α β : Type} (g : α → β) (r : Except ε α) : (r.map g).isOk = r.isOk := by
  cases r <;> rfl

theorem exists_eq_error {ε α : Type} {r : Except ε α} (h : r.isOk = false) :
    ∃ e, r = .error e := by
  cases r with
  | error e => exact ⟨e, rfl⟩
  | ok a => nomatch h

/-- The names of rounding modes stand for one. -/
theorem RoundingMode.isSome_ofName? (w : Text) :
    (ofName? w).isSome = decide (w ∈ all.map name) := by
  rw [Bool.eq_iff_iff, ofName?, List.find?_isSome]
  simp

namespace Statement

theorem isOk_checkMode (text : Text) (s : Span) :
    (checkMode text s).isOk = (RoundingMode.ofName? s.text).isSome := by
  unfold checkMode
  cases RoundingMode.ofName? s.text <;> rfl

theorem isOk_checkLiteral (f : FloatFormat) (text : Text) (s : Span) :
    (checkLiteral f text s).isOk = (Literal.canonicalize f s.text).isOk := by
  unfold checkLiteral
  cases Literal.canonicalize f s.text <;> rfl

theorem isOk_checkFlags (text : Text) (st : Statement) :
    (checkFlags text st).isOk = (FlagSet.parse st.flags.text).isOk := by
  unfold checkFlags
  cases FlagSet.parse st.flags.text <;> rfl

theorem eq_of_checkMode (h : checkMode text s = .error e) :
    e = faultAt text s (.unknownMode s.text) := by
  unfold checkMode at h
  split at h
  · exact (Except.error.inj h).symm
  · nomatch h

theorem eq_of_checkLiteral (h : checkLiteral f text s = .error e) :
    e = faultAt text s (.malformedLiteral s.text) := by
  unfold checkLiteral at h
  split at h
  · exact (Except.error.inj h).symm
  · nomatch h

theorem exists_parse_of_checkFlags (h : checkFlags text st = .error e) :
    ∃ u, FlagSet.parse st.flags.text = .error u ∧
      e = faultAt text (st.blame u.name) (.unknownFlag u.name) := by
  unfold checkFlags at h
  split at h
  · rename_i u hu
    exact ⟨u, hu, (Except.error.inj h).symm⟩
  · nomatch h

theorem blame_of_find? {v : Span} {name : Text}
    (h : st.flagNames.find? (fun v => v.text = name) = some v) : st.blame name = v := by
  rw [blame, h, Option.getD_some]

theorem blame_of_forall_ne {name : Text} (h : ∀ v ∈ st.flagNames, v.text ≠ name) :
    st.blame name = st.flags := by
  have hn : st.flagNames.find? (fun v => v.text = name) = none :=
    List.find?_eq_none.mpr fun v hv => by simpa using h v hv
  rw [blame, hn, Option.getD_none]

/-- The check of a field, without what it gives. -/
def checkField (f : FloatFormat) (text : Text) (st : Statement) : Field → Except Fault Unit
  | .mode => (checkMode text st.mode).map fun _ => ()
  | .input => (checkLiteral f text st.input).map fun _ => ()
  | .output => (checkLiteral f text st.output).map fun _ => ()
  | .errorBound => (checkLiteral .f32 text st.errorBound).map fun _ => ()
  | .flags => (checkFlags text st).map fun _ => ()

/-- The fields are checked one after the other. -/
theorem forM_checkField (f : FloatFormat) (text : Text) (st : Statement) :
    forM Field.all (st.checkField f text) = (st.check f text).map fun _ => () := by
  simp only [Field.all, List.forM_cons, List.forM_nil, checkField, check]
  cases checkMode text st.mode <;> cases checkLiteral f text st.input <;>
    cases checkLiteral f text st.output <;> cases checkLiteral .f32 text st.errorBound <;>
    cases checkFlags text st <;> rfl

/-- A statement is refused for the first field whose check fails. -/
theorem check_eq_error_iff :
    st.check f text = .error e ↔
      ∃ x, Field.all.find? (fun x => !(st.checkField f text x).isOk) = some x ∧
        st.checkField f text x = .error e := by
  rw [← forM_eq_error_iff, forM_checkField, map_eq_error_iff]

theorem pointsAt_faultAt (h : s.LiesIn text) (cause : Cause) :
    (faultAt text s cause).PointsAt s :=
  ⟨rfl, rfl, h.slice⟩

end Statement

namespace Layout

/-- Whether a flag is known: without the white space at its ends it is a name, or a zero that is
the only flag. -/
def isKnown (l : Layout) (s : Span) : Bool :=
  Text.trim s.text ∈ FlagSet.names || (l.flags.isEmpty && Text.trim s.text = ['0'])

/-- Whether a field is valid: it names a rounding mode, is a literal, or has known flags only. -/
def isValid (f : FloatFormat) (l : Layout) : Field → Bool
  | .mode => l.mode.1 ∈ RoundingMode.all.map RoundingMode.name
  | .input => (Literal.canonicalize f l.input.1).isOk
  | .output => (Literal.canonicalize f l.output.1).isOk
  | .errorBound => (Literal.canonicalize .f32 l.errorBound.1).isOk
  | .flags => l.statement.flagNames.all l.isKnown

/-- A fault that is about a flag. -/
structure BlamesFlag (l : Layout) (e : Fault) (s : Span) : Prop where
  /-- The flag is the first that is unknown. -/
  first : l.statement.flagNames.find? (fun v => !l.isKnown v) = some s
  cause : e.cause = .unknownFlag (Text.trim s.text)
  /-- The first flag that is written like the reported name is pointed at. -/
  found : ∀ v, l.statement.flagNames.find? (fun v => v.text = Text.trim s.text) = some v →
    e.PointsAt v ∧ e.snippet = Text.trim s.text
  /-- The whole list is pointed at if there is none. -/
  missing : (∀ v ∈ l.statement.flagNames, v.text ≠ Text.trim s.text) →
    e.PointsAt l.statement.flags ∧ Text.trim s.text <:+: e.snippet
  /-- A flag without white space at its ends is pointed at itself. -/
  bare : Text.trim s.text = s.text → e.PointsAt s

/-- A fault that is about a field: what is wrong with it, and where that stands. -/
def Blames (l : Layout) (e : Fault) : Field → Prop
  | .mode => e.cause = .unknownMode l.mode.1 ∧ e.PointsAt (l.span .mode)
  | .input => e.cause = .malformedLiteral l.input.1 ∧ e.PointsAt (l.span .input)
  | .output => e.cause = .malformedLiteral l.output.1 ∧ e.PointsAt (l.span .output)
  | .errorBound => e.cause = .malformedLiteral l.errorBound.1 ∧ e.PointsAt (l.span .errorBound)
  | .flags => ∃ s, l.BlamesFlag e s

/-- All flags are known if the list is a zero alone; else those are that are names. -/
theorem isKnown_iff (hs : s ∈ l.statement.flagNames) :
    l.isKnown s = true ↔ Text.trim l.flagList = ['0'] ∨ Text.trim s.text ∈ FlagSet.names := by
  have hz : (l.flags = [] ∧ Text.trim s.text = ['0']) ↔ Text.trim l.flagList = ['0'] := by
    rw [trim_flagList_eq_zero_iff]
    refine and_congr_right fun hf => ?_
    have hl : l.statement.flagNames = [⟨Text.byteSize l.beforeFlags, l.flag.1⟩] := by
      rw [statement, hf]
      rfl
    rw [hl] at hs
    rw [List.mem_singleton.mp hs]
  simp only [isKnown, Bool.or_eq_true, Bool.and_eq_true, decide_eq_true_eq, List.isEmpty_iff, hz]
  exact or_comm

/-- A flag list is refused for its first unknown flag. -/
theorem parse_flagList_eq_error_iff {u : UnknownFlag} :
    FlagSet.parse l.flagList = .error u ↔
      ∃ s, l.statement.flagNames.find? (fun v => !l.isKnown v) = some s ∧
        Text.trim s.text = u.name := by
  rw [FlagSet.parse_eq_error_iff, map_trim_splitOn_flagList, List.find?_map, Option.map_eq_some_iff]
  by_cases hz : Text.trim l.flagList = ['0']
  · have hn : l.statement.flagNames.find? (fun v => !l.isKnown v) = none :=
      List.find?_eq_none.mpr fun s hs => by simp [isKnown_iff hs, hz]
    simp [hz, hn]
  · have hf : l.statement.flagNames.find? (fun v => !l.isKnown v) =
        l.statement.flagNames.find? ((fun w => w ∉ FlagSet.names) ∘ fun s => Text.trim s.text) := by
      refine List.find?_congr fun s hs => ?_
      have hk := isKnown_iff hs
      simp only [hz, false_or] at hk
      simp [← hk]
    rw [hf]
    exact and_iff_right hz

/-- A flag list stands for a set if all of its flags are known. -/
theorem isOk_parse_flagList (l : Layout) :
    (FlagSet.parse l.flagList).isOk = l.statement.flagNames.all l.isKnown := by
  cases hp : FlagSet.parse l.flagList with
  | error u =>
    obtain ⟨s, hs, -⟩ := parse_flagList_eq_error_iff.mp hp
    have hk : l.isKnown s = false := by simpa using List.find?_some hs
    exact (List.all_eq_false.mpr ⟨s, List.mem_of_find?_eq_some hs, by simp [hk]⟩).symm
  | ok y =>
    cases hs : l.statement.flagNames.find? (fun v => !l.isKnown v) with
    | none =>
      have hall : ∀ v ∈ l.statement.flagNames, l.isKnown v = true := by
        simpa using List.find?_eq_none.mp hs
      exact (List.all_eq_true.mpr hall).symm
    | some s =>
      have he := parse_flagList_eq_error_iff.mpr ⟨s, hs, rfl⟩
      exact nomatch hp.symm.trans he

/-- The first unknown flag is the first flag that is written like it. -/
theorem find?_text_of_first (h : l.statement.flagNames.find? (fun v => !l.isKnown v) = some s) :
    l.statement.flagNames.find? (fun v => v.text = s.text) = some s := by
  obtain ⟨hs, before, after, hl, hb⟩ := List.find?_eq_some_iff_append.mp h
  refine List.find?_eq_some_iff_append.mpr ⟨by simp, before, after, hl, fun v hv => ?_⟩
  have hne : v.text ≠ s.text := by
    intro ht
    -- whether a flag is known depends on its text only
    have hk : l.isKnown v = l.isKnown s := by rw [isKnown, isKnown, ht]
    have hv := hb v hv
    rw [hk] at hv
    simp [hs] at hv
  simpa using hne

theorem trim_text_isInfix (hs : s ∈ l.statement.flagNames) :
    Text.trim s.text <:+: l.flagList := by
  obtain ⟨a, b, hl, -⟩ := exists_flagList_eq hs
  exact (Text.trim_isInfix s.text).trans ⟨a, b, hl.symm⟩

/-- A fault of a flag list is about its first unknown flag. -/
theorem blamesFlag_of_parse {u : UnknownFlag} (h : FlagSet.parse l.flagList = .error u) :
    ∃ s, l.BlamesFlag (Statement.faultAt l.text (l.statement.blame u.name) (.unknownFlag u.name))
      s := by
  obtain ⟨s, hs, hu⟩ := parse_flagList_eq_error_iff.mp h
  rw [← hu]
  refine ⟨s, hs, rfl, fun v hv => ?_, fun hn => ?_, fun ht => ?_⟩
  · have hp := Statement.pointsAt_faultAt (flagName_liesIn (List.mem_of_find?_eq_some hv))
      (.unknownFlag (Text.trim s.text))
    have hv' : v.text = Text.trim s.text := by simpa using List.find?_some hv
    rw [Statement.blame_of_find? hv]
    exact ⟨hp, hp.snippet.trans hv'⟩
  · have hp := Statement.pointsAt_faultAt (l.span_liesIn .flags)
      (.unknownFlag (Text.trim s.text))
    have hi := trim_text_isInfix (List.mem_of_find?_eq_some hs)
    rw [Statement.blame_of_forall_ne hn]
    exact ⟨hp, hp.snippet ▸ hi⟩
  · rw [ht, Statement.blame_of_find? (find?_text_of_first hs)]
    exact Statement.pointsAt_faultAt (flagName_liesIn (List.mem_of_find?_eq_some hs)) _

/-- A check that fails tells what is wrong with the field, and where. -/
theorem blames_of_checkField (h : l.statement.checkField f l.text x = .error e) :
    e.text = l.text ∧ l.Blames e x := by
  have hp := fun cause => Statement.pointsAt_faultAt (l.span_liesIn x) cause
  cases x with
  | mode =>
    obtain rfl := Statement.eq_of_checkMode (map_eq_error_iff.mp h)
    exact ⟨rfl, rfl, hp _⟩
  | input | output | errorBound =>
    obtain rfl := Statement.eq_of_checkLiteral (map_eq_error_iff.mp h)
    exact ⟨rfl, rfl, hp _⟩
  | flags =>
    obtain ⟨u, hu, rfl⟩ := Statement.exists_parse_of_checkFlags (map_eq_error_iff.mp h)
    exact ⟨rfl, blamesFlag_of_parse hu⟩

/-- A field whose check fails is not valid. -/
theorem isOk_checkField (f : FloatFormat) (text : Text) (l : Layout) (x : Field) :
    (l.statement.checkField f text x).isOk = l.isValid f x := by
  unfold Statement.checkField
  cases x with
  | mode =>
    rw [isOk_map, Statement.isOk_checkMode, RoundingMode.isSome_ofName?]
    rfl
  | input | output | errorBound =>
    rw [isOk_map, Statement.isOk_checkLiteral]
    rfl
  | flags =>
    rw [isOk_map, Statement.isOk_checkFlags]
    exact isOk_parse_flagList l

theorem Blames.isPlaced (h : l.Blames e x) (ht : e.text = l.text) : e.IsPlaced := by
  have hfield : ∀ x, e.PointsAt (l.span x) → e.IsPlaced := fun x hp =>
    hp.isPlaced (ht ▸ l.span_liesIn x) (l.span_text_ne_nil x)
  cases x with
  | flags =>
    obtain ⟨s, hs⟩ := h
    cases hv : l.statement.flagNames.find? (fun v => v.text = Text.trim s.text) with
    | none =>
      have hn : ∀ v ∈ l.statement.flagNames, v.text ≠ Text.trim s.text := fun v hm => by
        simpa using List.find?_eq_none.mp hv v hm
      exact hfield .flags (hs.missing hn).1
    | some v =>
      have hm := List.mem_of_find?_eq_some hv
      exact (hs.found v hv).1.isPlaced (ht ▸ flagName_liesIn hm) (flagName_text_ne_nil hm)
  | _ => exact hfield _ h.2

end Layout

namespace Line

/-- A line laid out as a test case is refused if and only if one of its fields is not valid. -/
theorem exists_read_error_iff (hl : l.text = Text.trim line) :
    (∃ e, read f modes line = .error e) ↔ ∃ x, l.isValid f x = false := by
  simp only [read_of_text_eq f modes hl, map_eq_error_iff, Statement.check_eq_error_iff,
    Layout.isOk_checkField]
  constructor
  · rintro ⟨e, x, hx, -⟩
    exact ⟨x, by simpa using List.find?_some hx⟩
  · rintro ⟨x, hx⟩
    have hfind : (Field.all.find? fun x => !l.isValid f x).isSome = true :=
      List.find?_isSome.mpr ⟨x, x.mem_all, by simp [hx]⟩
    obtain ⟨y, hy⟩ := Option.isSome_iff_exists.mp hfind
    have hok : l.isValid f y = false := by simpa using List.find?_some hy
    rw [← Layout.isOk_checkField f (Text.trim line)] at hok
    obtain ⟨e, he⟩ := exists_eq_error hok
    exact ⟨e, y, hy, he⟩

/--
A line laid out as a test case is refused if one of its fields is not valid. The fault is about the
trimmed line and a range of it; the first field that is not valid is to blame, and its token, or in
a flag list the first unknown flag, is reported and pointed at.
-/
theorem read_error_blames (f : FloatFormat) (modes : ModeSet) (line : Text) :
    (∀ l : Layout, l.text = Text.trim line →
      ((∃ e, read f modes line = .error e) ↔ ∃ x, l.isValid f x = false)) ∧
    ∀ e, read f modes line = .error e → e.text = Text.trim line ∧ e.IsPlaced ∧
      ∃ l : Layout, l.text = Text.trim line ∧
        ∃ x, Field.all.find? (fun x => !l.isValid f x) = some x ∧ l.Blames e x := by
  refine ⟨fun l hl => exists_read_error_iff hl, fun e h => ?_⟩
  rcases read_cases f modes line with ⟨-, hr⟩ | ⟨-, hr⟩ | ⟨l, hl⟩ | ⟨-, -, -, hr⟩
  · simp [hr] at h
  · simp [hr] at h
  · rw [read_of_text_eq f modes hl, ← hl] at h
    obtain ⟨x, hx, hc⟩ := Statement.check_eq_error_iff.mp (map_eq_error_iff.mp h)
    obtain ⟨ht, hb⟩ := Layout.blames_of_checkField hc
    simp only [Layout.isOk_checkField] at hx
    exact ⟨ht.trans hl, hb.isPlaced ht, l, hl, x, hx, hb⟩
  · simp [hr] at h

/-- The first unknown flag has white space before it, and a later one is spelled without. -/
theorem read_error_blames_later :
    let line := " T(RN, inf, inf, 0x0p+0, INEXACT\u00a0|\u00a0FOO|é|FOO)".toList
    let e : Fault := ⟨.unknownFlag "FOO".toList, Text.trim line, 43, 46⟩
    read .f32 .all line = .error e ∧ e.IsPlaced ∧
      ∃ l s, l.text = Text.trim line ∧ Layout.BlamesFlag l e s := by
  intro line e
  have h : read .f32 .all line = .error e := by decide +kernel
  obtain ⟨-, hp, l, hl, x, -, hb⟩ := (read_error_blames .f32 .all line).2 e h
  cases x with
  | flags =>
    obtain ⟨s, hs⟩ := hb
    exact ⟨h, hp, l, s, hl, hs⟩
  | _ => nomatch hb.1

end Line
end FloatCases
