import FloatCases.Proofs.Conversion.Reading
import FloatCases.Proofs.Line.Options

/-!
What the options change when a file is read. Main statement: a file is converted for all options or
for none, and then the fault is that of its first line that is refused.
-/
namespace FloatCases

variable {f g : FloatFormat} {modes modes' : ModeSet} {n : Nat} {ls before after : List Text}
  {text : Text} {φ ψ : Line → Line} {e : LineFault}

namespace Reading

/-- A reading with its lines changed one by one. -/
def mapLines (φ : Line → Line) (r : Reading) : Reading :=
  ⟨r.entries.map fun x => { x with line := φ x.line }, r.fault⟩

@[simp]
theorem fault_mapLines (φ : Line → Line) (r : Reading) : (r.mapLines φ).fault = r.fault :=
  rfl

theorem mapLines_id (r : Reading) : r.mapLines id = r := by
  simp [mapLines]

theorem kinds_mapLines (φ : Line → Line) (r : Reading) : (r.mapLines φ).kinds = r.kinds.map φ := by
  simp [mapLines, kinds]

theorem unrecognized_mapLines (h : ∀ kind, φ kind = .unrecognized ↔ kind = .unrecognized)
    (r : Reading) : (r.mapLines φ).unrecognized = r.unrecognized := by
  simp [mapLines, unrecognized, List.filter_map, Function.comp_def, h]

theorem filtered_mapLines (h : ∀ kind, (φ kind).isFiltered = kind.isFiltered) (r : Reading) :
    (r.mapLines φ).filtered = r.filtered := by
  simp [mapLines, filtered, List.countP_map, Function.comp_def, h]

/-- Files are read in the same way, up to changes of lines, if each line is. -/
theorem mapLines_ofLines
    (h : ∀ text, (Line.read f modes text).map φ = (Line.read g modes' text).map ψ) (n : Nat)
    (ls : List Text) :
    (ofLines f modes n ls).mapLines φ = (ofLines g modes' n ls).mapLines ψ := by
  induction ls generalizing n with
  | nil => rfl
  | cons text ls ih =>
    have ht := h text
    cases hf : Line.read f modes text <;> cases hg : Line.read g modes' text <;>
      rw [hf, hg] at ht
    case error.error => simp_all [ofLines, mapLines, Except.map]
    case error.ok => simp [Except.map] at ht
    case ok.error => simp [Except.map] at ht
    case ok.ok kind kind' =>
      have hk : φ kind = ψ kind' := Except.ok.inj ht
      have he := congrArg entries (ih (n + 1))
      have hr := congrArg fault (ih (n + 1))
      simp only [mapLines] at he hr
      simp [ofLines, hf, hg, mapLines, hk, he, hr]

/-- The modes decide which test cases are kept when the whole file has been read. -/
theorem ofLines_eq_mapLines_restrict (f : FloatFormat) (modes : ModeSet) (n : Nat)
    (ls : List Text) :
    ofLines f modes n ls = (ofLines f .all n ls).mapLines (Line.restrict modes) := by
  rw [← mapLines_ofLines (φ := id) fun text => ?_, mapLines_id]
  rw [Except.map_id, id, Line.read_eq_map_restrict]

/-- A file is read in the same way for all formats, up to the spelling of literals. -/
theorem mapLines_outline_ofLines (f g : FloatFormat) (modes : ModeSet) (n : Nat)
    (ls : List Text) :
    (ofLines f modes n ls).mapLines Line.outline = (ofLines g modes n ls).mapLines Line.outline :=
  mapLines_ofLines (Line.map_outline_read f g modes) n ls

theorem filtered_ofLines_formats (f g : FloatFormat) (modes : ModeSet) (n : Nat) (ls : List Text) :
    (ofLines f modes n ls).filtered = (ofLines g modes n ls).filtered := by
  rw [← filtered_mapLines Line.isFiltered_outline, mapLines_outline_ofLines f g,
    filtered_mapLines Line.isFiltered_outline]

theorem unrecognized_ofLines_formats (f g : FloatFormat) (modes : ModeSet) (n : Nat)
    (ls : List Text) :
    (ofLines f modes n ls).unrecognized = (ofLines g modes n ls).unrecognized := by
  rw [← unrecognized_mapLines fun _ => Line.outline_eq_unrecognized_iff,
    mapLines_outline_ofLines f g, unrecognized_mapLines fun _ => Line.outline_eq_unrecognized_iff]

/-- The fault of a file does not depend on the options. -/
theorem fault_ofLines_options (f g : FloatFormat) (modes modes' : ModeSet) (n : Nat)
    (ls : List Text) : (ofLines f modes n ls).fault = (ofLines g modes' n ls).fault := by
  have h := congrArg fault (mapLines_outline_ofLines f g .all n ls)
  rw [fault_mapLines, fault_mapLines] at h
  rw [ofLines_eq_mapLines_restrict f modes, ofLines_eq_mapLines_restrict g modes', fault_mapLines,
    fault_mapLines, h]

theorem fault_ofLines_append_cons (hb : ∀ l ∈ before, ∃ kind, Line.read f modes l = .ok kind)
    (ht : Line.read f modes text = .error e.fault) (hn : e.line = n + before.length) :
    (ofLines f modes n (before ++ text :: after)).fault = some e := by
  induction before generalizing n with
  | nil =>
    obtain ⟨line, fault⟩ := e
    simp_all [ofLines]
  | cons l before ih =>
    obtain ⟨⟨kind, hk⟩, hb⟩ := List.forall_mem_cons.mp hb
    rw [List.length_cons] at hn
    simp [ofLines, hk, ih hb (n := n + 1) (by omega)]

/-- A fault is that of the first line that is refused, and carries the number of the line. -/
theorem fault_ofLines_eq_some_iff :
    (ofLines f modes n ls).fault = some e ↔
      ∃ before text after, ls = before ++ text :: after ∧ e.line = n + before.length ∧
        (∀ l ∈ before, ∃ kind, Line.read f modes l = .ok kind) ∧
          Line.read f modes text = .error e.fault := by
  constructor
  · intro h
    induction ls generalizing n with
    | nil => simp [ofLines] at h
    | cons text ls ih =>
      cases hr : Line.read f modes text with
      | error fault =>
        obtain rfl : ⟨n, fault⟩ = e := by simpa [ofLines, hr] using h
        exact ⟨[], text, ls, rfl, rfl, by simp, hr⟩
      | ok kind =>
        obtain ⟨before, text', after, rfl, hn, hb, ht⟩ := ih (by simpa [ofLines, hr] using h)
        refine ⟨text :: before, text', after, rfl, ?_,
          List.forall_mem_cons.mpr ⟨⟨kind, hr⟩, hb⟩, ht⟩
        rw [hn, List.length_cons]
        omega
  · rintro ⟨before, text, after, rfl, hn, hb, ht⟩
    exact fault_ofLines_append_cons hb ht hn

end Reading

namespace Conversion

variable {o o' : Options} {source : Text}

/-- The fault of a conversion does not depend on the options. -/
theorem fault_reading_options (o o' : Options) (source : Text) :
    (reading o source).fault = (reading o' source).fault :=
  Reading.fault_ofLines_options _ _ _ _ 1 _

/--
A line is refused for all formats and modes or for none, and for the same reason. So a file is
converted for all options or for none, and the fault that is reported is that of the first line that
is refused.
-/
theorem convert_error_options :
    (∀ line f g modes modes' e,
      Line.read f modes line = .error e → Line.read g modes' line = .error e) ∧
    (∀ o o' source,
      ((∃ c, convert o source = .ok c) ∧ ∃ c', convert o' source = .ok c') ∨
        ∃ e, convert o source = .error e ∧ convert o' source = .error e) ∧
    ∀ o source e, convert o source = .error e ↔
      ∃ before line after, Text.lines source = before ++ line :: after ∧
        e.line = before.length + 1 ∧ ∀ f modes,
          (∀ l ∈ before, ∃ kind, Line.read f modes l = .ok kind) ∧
            Line.read f modes line = .error e.fault := by
  refine ⟨fun line f g modes modes' e h => Line.read_eq_error h g modes', fun o o' source => ?_,
    fun o source e => ?_⟩
  · have hf := fault_reading_options o o' source
    cases h : (reading o source).fault with
    | none =>
      exact Or.inl ⟨⟨_, convert_eq_ok_iff.mpr ⟨h, rfl⟩⟩, _, convert_eq_ok_iff.mpr ⟨hf ▸ h, rfl⟩⟩
    | some e =>
      exact Or.inr ⟨e, convert_eq_error_iff.mpr h, convert_eq_error_iff.mpr (hf ▸ h)⟩
  · rw [convert_eq_error_iff, reading, Reading.fault_ofLines_eq_some_iff]
    constructor
    · rintro ⟨before, line, after, hs, hn, hb, hl⟩
      refine ⟨before, line, after, hs, by omega, fun f modes => ⟨fun l h => ?_, ?_⟩⟩
      · obtain ⟨kind, hk⟩ := hb l h
        exact Line.exists_read_of_read hk f modes
      · exact Line.read_eq_error hl f modes
    · rintro ⟨before, line, after, hs, hn, h⟩
      obtain ⟨hb, hl⟩ := h (formatFor o source) o.modes
      exact ⟨before, line, after, hs, by omega, hb, hl⟩

/-- A mode that is unknown, in the second line of a file of which no test case is kept. -/
theorem convert_error_options_unknown_mode :
    Line.read .f32 .all "T(RX, inf, 0, 1, 0)".toList =
        .error ⟨.unknownMode "RX".toList, "T(RX, inf, 0, 1, 0)".toList, 2, 4⟩ ∧
      Line.read .f128 .empty "T(RX, inf, 0, 1, 0)".toList =
        .error ⟨.unknownMode "RX".toList, "T(RX, inf, 0, 1, 0)".toList, 2, 4⟩ ∧
      convert ⟨none, .empty, []⟩ "\nT(RX, inf, 0, 1, 0)".toList =
        .error ⟨2, .unknownMode "RX".toList, "T(RX, inf, 0, 1, 0)".toList, 2, 4⟩ := by
  have h : Line.read .f32 .all "T(RX, inf, 0, 1, 0)".toList =
      .error ⟨.unknownMode "RX".toList, "T(RX, inf, 0, 1, 0)".toList, 2, 4⟩ := by decide +kernel
  have hall := fun g modes => convert_error_options.1 _ .f32 g .all modes _ h
  refine ⟨h, hall _ _, (convert_error_options.2.2 _ _ _).mpr
    ⟨[[]], "T(RX, inf, 0, 1, 0)".toList, [], by decide, rfl, fun f modes => ⟨?_, hall f modes⟩⟩⟩
  exact List.forall_mem_singleton.mpr ⟨.blank, rfl⟩

end Conversion
end FloatCases
