import FloatCases.Proofs.Flags.Display
import FloatCases.Proofs.Text.Trimming
import Mathlib.Data.List.Basic
import Mathlib.Logic.Relation

/-!
The sets that flag lists stand for. Main statements: a list of names stands for the set of the flags
that it names, so it can be written in another order, with names that come more than once, with the
name of no flags and with white space around names; a zero stands for the set without members only
if it is alone.
-/
namespace FloatCases.FlagSet

open Relation (ReflTransGen)

variable {s t w : Text} {ws ws' : List Text} {x y : FlagSet} {f g : Flag}

/-- The pieces of a flag list between bars, without the white space at their ends. -/
def pieces (s : Text) : List Text :=
  (List.splitOn '|' s).map Text.trim

/-- The flag list that is written with given pieces. -/
def joined (ws : List Text) : Text :=
  List.intercalate ['|'] ws

/-! The names in a list. -/

theorem contains_empty (f : Flag) : empty.contains f = false :=
  contains_ofPred _ f

theorem contains_only : (only g).contains f = true ↔ f = g := by
  rw [only, contains_ofPred, decide_eq_true_eq]

/-- A name stands for the flag that has it. -/
theorem contains_of_ofName? (h : ofName? w = some x) (f : Flag) :
    x.contains f = true ↔ f.name = w := by
  unfold ofName? at h
  split at h
  · rename_i hw
    obtain rfl := Option.some.inj h
    have hne : f.name ≠ w := fun hf => emptyName_ne_name f (hw.symm.trans hf.symm)
    simp [contains_empty, hne]
  · obtain ⟨g, hg, rfl⟩ := Option.map_eq_some_iff.mp h
    have hn : g.name = w := by simpa using List.find?_some hg
    rw [contains_only, ← hn, Flag.name_injective.eq_iff]

/-- Names in a row stand for the flags that have one of them. -/
theorem contains_of_ofNames (h : ofNames ws = .ok x) (f : Flag) :
    x.contains f = true ↔ f.name ∈ ws := by
  induction ws generalizing x with
  | nil =>
    obtain rfl := Except.ok.inj h
    simp [contains_empty]
  | cons w ws ih =>
    rw [ofNames] at h
    cases hw : ofName? w with
    | none => simp [hw] at h
    | some y =>
      cases hr : ofNames ws with
      | error e => simp [hw, hr, Except.map] at h
      | ok z =>
        obtain rfl : y.union z = x := by simpa [hw, hr, Except.map] using h
        rw [contains_union, Bool.or_eq_true, contains_of_ofName? hw, ih hr, List.mem_cons]

theorem exists_ofNames (h : ∀ w ∈ ws, w ∈ names) : ∃ x, ofNames ws = .ok x := by
  cases hr : ofNames ws with
  | ok x => exact ⟨x, rfl⟩
  | error e =>
    have hf := ofNames_eq_error_iff.mp hr
    have hn : e.name ∉ names := by simpa using List.find?_some hf
    exact absurd (h e.name (List.mem_of_find?_eq_some hf)) hn

theorem mem_names_of_ofNames (h : ofNames ws = .ok x) : ∀ w ∈ ws, w ∈ names := by
  have hn : ws.find? (fun w => w ∉ names) = none := by
    cases hf : ws.find? (fun w => w ∉ names) with
    | none => rfl
    | some w => exact nomatch h.symm.trans (ofNames_eq_error_iff (e := ⟨w⟩).mpr hf)
  simpa using hn

/-- Texts in a row stand for a set if all are names, and its members are the flags they name. -/
theorem ofNames_eq_ok_iff :
    ofNames ws = .ok x ↔
      (∀ w ∈ ws, w ∈ names) ∧ ∀ f : Flag, x.contains f = true ↔ f.name ∈ ws := by
  constructor
  · exact fun h => ⟨mem_names_of_ofNames h, contains_of_ofNames h⟩
  · rintro ⟨hn, hx⟩
    obtain ⟨y, hy⟩ := exists_ofNames hn
    have he : y = x := eq_of_contains fun f =>
      Bool.eq_iff_iff.mpr ((contains_of_ofNames hy f).trans (hx f).symm)
    rw [hy, he]

/-- The order of names does not matter, nor how often they come, nor the name of no flags. -/
theorem ofNames_congr (h : ∀ w, w ≠ emptyName → (w ∈ ws ↔ w ∈ ws')) :
    ofNames ws = .ok x ↔ ofNames ws' = .ok x := by
  have hall : ∀ vs : List Text,
      (∀ w ∈ vs, w ∈ names) ↔ ∀ w, w ≠ emptyName → w ∈ vs → w ∈ names := by
    intro vs
    refine ⟨fun hv w _ hw => hv w hw, fun hv w hw => ?_⟩
    by_cases he : w = emptyName
    · exact he ▸ List.mem_cons_self
    · exact hv w he hw
  have hname : ∀ f : Flag, f.name ∈ ws ↔ f.name ∈ ws' := fun f =>
    h f.name (emptyName_ne_name f).symm
  rw [ofNames_eq_ok_iff, ofNames_eq_ok_iff, hall ws, hall ws']
  simp only [hname]
  refine and_congr_left fun _ => forall₂_congr fun w hw => ?_
  rw [h w hw]

/-! The pieces of a text. -/

theorem pieces_joined (hne : ws ≠ []) (hbar : ∀ w ∈ ws, '|' ∉ w) :
    pieces (joined ws) = ws.map Text.trim := by
  rw [pieces, joined, List.splitOn_intercalate '|' hbar hne]

/-- A text is a zero up to white space if that is its only piece. -/
theorem trim_eq_zero_iff : Text.trim s = ['0'] ↔ pieces s = [['0']] := by
  constructor
  · intro h
    have hbar : '|' ∉ s := fun hm => by
      have ht := Text.mem_trim_of_mem hm (by decide)
      rw [h] at ht
      exact absurd ht (by decide)
    rw [pieces, List.splitOn_eq_singleton hbar, List.map_singleton, h]
  · intro h
    obtain ⟨w, hw, ht⟩ := List.map_eq_singleton_iff.mp h
    have hs : List.intercalate ['|'] (List.splitOn '|' s) = s := List.intercalate_splitOn '|'
    rw [hw, List.intercalate_singleton] at hs
    rw [← hs, ht]

theorem parse_of_pieces_ne (h : pieces s ≠ [['0']]) : parse s = ofNames (pieces s) :=
  if_neg fun hz => h (trim_eq_zero_iff.mp hz)

/-- A text stands for the empty set if it is a zero, and else for the flags that its pieces name. -/
theorem parse_eq_ok_iff :
    parse s = .ok x ↔ (Text.trim s = ['0'] ∧ x = empty) ∨
      ((∀ w ∈ pieces s, w ∈ names) ∧ ∀ f : Flag, x.contains f = true ↔ f.name ∈ pieces s) := by
  by_cases hz : Text.trim s = ['0']
  · have hn : ¬ ∀ w ∈ pieces s, w ∈ names := by
      rw [trim_eq_zero_iff.mp hz]
      decide
    rw [parse, if_pos hz, Except.ok.injEq, eq_comm]
    simp only [hz, hn, true_and, false_and, or_false]
  · rw [parse_of_pieces_ne fun hp => hz (trim_eq_zero_iff.mpr hp), ofNames_eq_ok_iff]
    simp [hz]

/-- The members of a set are the flags that its list names, also if that is a zero. -/
theorem contains_of_parse (h : parse s = .ok x) (f : Flag) :
    x.contains f = true ↔ f.name ∈ pieces s := by
  rcases parse_eq_ok_iff.mp h with ⟨hz, rfl⟩ | ⟨-, hx⟩
  · have hne : f.name ≠ ['0'] := by cases f <;> decide
    simp [contains_empty, trim_eq_zero_iff.mp hz, hne]
  · exact hx f

/-! Other ways to write a list. -/

/-- Whether a flag list with given pieces is a zero, up to white space. -/
def IsZero (ws : List Text) : Prop :=
  ws.map Text.trim = [['0']]

instance (ws : List Text) : Decidable (IsZero ws) :=
  inferInstanceAs (Decidable (ws.map Text.trim = [['0']]))

/-- One way to write a flag list with given pieces anew; only a zero must stay alone. -/
inductive Respelling : List Text → List Text → Prop
  /-- The pieces come in another order. -/
  | order {ws ws' : List Text} : ws.Perm ws' → Respelling ws ws'
  /-- A piece comes once more. -/
  | again (us vs : List Text) (w : Text) : w ∈ us ++ vs → ¬ IsZero (us ++ vs) →
      Respelling (us ++ vs) (us ++ w :: vs)
  /-- The name of no flags is put in. -/
  | none (us vs : List Text) : ¬ IsZero (us ++ vs) →
      Respelling (us ++ vs) (us ++ emptyName :: vs)
  /-- White space is put around a piece. -/
  | space (us vs : List Text) (before w after : Text) :
      (∀ c ∈ before ++ after, Text.isBlank c = true) →
        Respelling (us ++ w :: vs) (us ++ (before ++ w ++ after) :: vs)

/-- What stands between the bars of a flag list. -/
structure IsList (ws : List Text) : Prop where
  ne_nil : ws ≠ []
  bar_notMem : ∀ w ∈ ws, '|' ∉ w

theorem trim_spaced {before w after : Text} (h : ∀ c ∈ before ++ after, Text.isBlank c = true) :
    Text.trim (before ++ w ++ after) = Text.trim w := by
  obtain ⟨hb, ha⟩ := List.forall_mem_append.mp h
  rw [List.append_assoc, Text.trim_append_of_isBlank hb, Text.trim_append_isBlank ha]

theorem bar_not_mem_spaced {before w after : Text}
    (h : ∀ c ∈ before ++ after, Text.isBlank c = true) (hw : '|' ∉ w) :
    '|' ∉ before ++ w ++ after := by
  have hbar : '|' ∉ before ++ after := fun hm => absurd (h '|' hm) (by decide)
  simp only [List.mem_append, not_or] at hbar ⊢
  exact ⟨⟨hbar.1, hw⟩, hbar.2⟩

/-- The names of flags in a list stay when it is written anew. -/
theorem Respelling.mem_iff (h : Respelling ws ws') (hw : w ≠ emptyName) :
    w ∈ ws.map Text.trim ↔ w ∈ ws'.map Text.trim := by
  cases h with
  | order hp => exact (hp.map Text.trim).mem_iff
  | again us vs v hv _ =>
    have ht : Text.trim v ∈ (us ++ vs).map Text.trim := List.mem_map_of_mem hv
    rw [List.map_append] at ht ⊢
    rw [List.map_append, List.map_cons, List.mem_append, List.mem_append, List.mem_cons]
    by_cases hwv : w = Text.trim v
    · rw [hwv, ← List.mem_append]
      exact iff_of_true ht (Or.inr (Or.inl rfl))
    · rw [or_iff_right (a := w = Text.trim v) hwv]
  | none us vs _ =>
    have he : Text.trim emptyName = emptyName := rfl
    simp [he, hw]
  | space us vs before v after hb =>
    simp only [List.map_append, List.map_cons, trim_spaced hb]

theorem IsList.insert {us vs : List Text} (h : IsList (us ++ vs)) (hw : '|' ∉ w) :
    IsList (us ++ w :: vs) := by
  obtain ⟨hus, hvs⟩ := List.forall_mem_append.mp h.bar_notMem
  exact ⟨by simp, List.forall_mem_append.mpr ⟨hus, List.forall_mem_cons.mpr ⟨hw, hvs⟩⟩⟩

/-- A list that is written anew is one. -/
theorem Respelling.isList (h : Respelling ws ws') (hl : IsList ws) : IsList ws' := by
  cases h with
  | order hp =>
    exact ⟨fun he => hl.ne_nil (he ▸ hp).eq_nil, fun w hw => hl.bar_notMem w (hp.mem_iff.mpr hw)⟩
  | again us vs w hw _ => exact hl.insert (hl.bar_notMem w hw)
  | none us vs _ => exact hl.insert (by decide)
  | space us vs before w after hb =>
    obtain ⟨hus, hws⟩ := List.forall_mem_append.mp hl.bar_notMem
    obtain ⟨hw, hvs⟩ := List.forall_mem_cons.mp hws
    have hw' := bar_not_mem_spaced hb hw
    exact ⟨by simp, List.forall_mem_append.mpr ⟨hus, List.forall_mem_cons.mpr ⟨hw', hvs⟩⟩⟩

/-- With one piece more there are two at least. -/
theorem not_isZero_insert {us vs : List Text} (h : us ++ vs ≠ []) (w : Text) :
    ¬ IsZero (us ++ w :: vs) := by
  intro hz
  have hlen := congrArg List.length hz
  have hpos := List.length_pos_iff.mpr h
  simp only [List.length_map, List.length_append, List.length_cons, List.length_nil] at hlen hpos
  omega

/-- A zero stays one, and nothing else becomes one. -/
theorem Respelling.isZero_iff (h : Respelling ws ws') (hne : ws ≠ []) :
    IsZero ws ↔ IsZero ws' := by
  have hperm : ∀ {us vs : List Text}, us.Perm vs → IsZero us → IsZero vs := fun hp hz =>
    List.perm_singleton.mp ((hp.map Text.trim).symm.trans (.of_eq hz))
  cases h with
  | order hp => exact ⟨hperm hp, hperm hp.symm⟩
  | again us vs w _ hz => exact iff_of_false hz (not_isZero_insert hne w)
  | none us vs hz => exact iff_of_false hz (not_isZero_insert hne emptyName)
  | space us vs before w after hb =>
    simp only [IsZero, List.map_append, List.map_cons, trim_spaced hb]

/-- What a list stands for stays when it is written anew in one way. -/
theorem Respelling.parse_iff (h : Respelling ws ws') (hl : IsList ws) :
    parse (joined ws) = .ok x ↔ parse (joined ws') = .ok x := by
  have hp := pieces_joined hl.ne_nil hl.bar_notMem
  have hp' := pieces_joined (h.isList hl).ne_nil (h.isList hl).bar_notMem
  have hzero := h.isZero_iff hl.ne_nil
  by_cases hz : IsZero ws
  · rw [parse, parse, if_pos (trim_eq_zero_iff.mpr (hp.trans hz)),
      if_pos (trim_eq_zero_iff.mpr (hp'.trans (hzero.mp hz)))]
  · rw [parse_of_pieces_ne fun he => hz (hp.symm.trans he),
      parse_of_pieces_ne fun he => hz (hzero.mpr (hp'.symm.trans he)), hp, hp']
    exact ofNames_congr fun w hw => h.mem_iff hw

/-- What a list stands for stays when it is written anew, in however many ways. -/
theorem parse_iff_of_respelled (h : ReflTransGen Respelling ws ws') (hl : IsList ws) :
    IsList ws' ∧ (parse (joined ws) = .ok x ↔ parse (joined ws') = .ok x) := by
  induction h with
  | refl => exact ⟨hl, Iff.rfl⟩
  | tail _ hstep ih => exact ⟨hstep.isList ih.1, ih.2.trans (hstep.parse_iff ih.1)⟩

/-! The written form. -/

theorem trim_of_mem_names (h : w ∈ names) : Text.trim w = w := by
  have hall : names.all (fun w => Text.trim w = w) = true := rfl
  simpa using List.all_eq_true.mp hall w h

theorem name_mem_written (x : FlagSet) (f : Flag) :
    f.name ∈ x.written ↔ x.contains f = true := by
  rw [← mem_members]
  unfold written
  split
  · rename_i hm
    simp [hm, (emptyName_ne_name f).symm]
  · exact List.mem_map_of_injective Flag.name_injective

/-- The written form of a set stands for it. -/
theorem parse_display (x : FlagSet) : parse x.display = .ok x := by
  have hnames : ∀ w ∈ x.written, w ∈ names := fun w => mem_names_of_mem_written
  have hp : pieces x.display = x.written := by
    rw [pieces, splitOn_display, List.map_congr_left fun w hw => trim_of_mem_names (hnames w hw),
      List.map_id']
  exact parse_eq_ok_iff.mpr
    (Or.inr (hp ▸ ⟨hnames, fun f => (name_mem_written x f).symm⟩))

/-- Two flag lists are displayed in one form if they name the same flags. -/
theorem display_eq_iff (hx : parse s = .ok x) (hy : parse t = .ok y) :
    x.display = y.display ↔ ∀ f : Flag, f.name ∈ pieces s ↔ f.name ∈ pieces t := by
  have hf : ∀ f : Flag, (x.contains f = y.contains f) ↔ (f.name ∈ pieces s ↔ f.name ∈ pieces t) :=
    fun f => by rw [Bool.eq_iff_iff, contains_of_parse hx, contains_of_parse hy]
  rw [display_injective.eq_iff]
  exact ⟨fun h f => (hf f).mp (h ▸ rfl), fun h => eq_of_contains fun f => (hf f).mpr (h f)⟩

/--
A flag list is a zero or a list of names. A zero stands for the empty set, and a list of names for
the set of the flags that it names; any other list is refused for the first of its pieces that is no
name. A list can be written anew and stands for the same, but no other piece can come to a zero.
Sets are displayed by their members in order, each of them once, so that lists are displayed in one
form if they name the same flags, and what is displayed stands for the set.
-/
theorem parse_denotes :
    (∀ s, (∃ x, parse s = .ok x) ↔ Text.trim s = ['0'] ∨ ∀ w ∈ pieces s, w ∈ names) ∧
    (∀ s x, parse s = .ok x ↔ (Text.trim s = ['0'] ∧ x = empty) ∨
      ((∀ w ∈ pieces s, w ∈ names) ∧ ∀ f : Flag, x.contains f = true ↔ f.name ∈ pieces s)) ∧
    (∀ s e, parse s = .error e ↔ Text.trim s ≠ ['0'] ∧
      (pieces s).find? (fun w => w ∉ names) = some e.name) ∧
    (∀ ws ws' x, IsList ws → ReflTransGen Respelling ws ws' →
      (parse (joined ws) = .ok x ↔ parse (joined ws') = .ok x)) ∧
    (∀ s t x y, parse s = .ok x → parse t = .ok y →
      (x.display = y.display ↔ ∀ f : Flag, f.name ∈ pieces s ↔ f.name ∈ pieces t)) ∧
    ∀ x : FlagSet, parse x.display = .ok x ∧
      ∃ fs : List Flag, fs.Sublist Flag.all ∧ fs.Nodup ∧ (∀ f, f ∈ fs ↔ x.contains f = true) ∧
        List.splitOn '|' x.display = if fs = [] then [emptyName] else fs.map Flag.name := by
  refine ⟨fun s => ?_, fun s x => parse_eq_ok_iff, fun s e => parse_eq_error_iff,
    fun ws ws' x hl h => (parse_iff_of_respelled h hl).2, fun s t x y => display_eq_iff,
    fun x => ⟨parse_display x, x.members, ?_⟩⟩
  · constructor
    · rintro ⟨x, hx⟩
      exact (parse_eq_ok_iff.mp hx).imp And.left And.left
    · rintro (hz | hn)
      · exact ⟨empty, parse_eq_ok_iff.mpr (Or.inl ⟨hz, rfl⟩)⟩
      · obtain ⟨x, hx⟩ := exists_ofNames hn
        exact ⟨x, parse_eq_ok_iff.mpr (Or.inr (ofNames_eq_ok_iff.mp hx))⟩
  · have hs : x.members.Sublist Flag.all := List.filter_sublist
    exact ⟨hs, hs.nodup (by decide), fun f => mem_members, splitOn_display x⟩

/-- Two flags with white space around one, the other named twice, and the name of no flags. -/
theorem parse_denotes_respelled :
    let ws := ["OVERFLOW".toList, "INVALID".toList]
    let ws' := ["INVALID".toList, "NONE".toList, "\u00a0OVERFLOW\t".toList, "INVALID".toList]
    let x := union (only .invalid) (only .overflow)
    IsList ws ∧ ReflTransGen Respelling ws ws' ∧ parse (joined ws) = .ok x ∧
      parse (joined ws') = .ok x ∧
      ∀ f : Flag, f.name ∈ pieces (joined ws) ↔ f.name ∈ pieces (joined ws') := by
  intro ws ws' x
  have hl : IsList ws := ⟨by decide, by decide⟩
  have hr : ReflTransGen Respelling ws ws' := by
    refine .head (.order (List.Perm.swap _ _ [])) (.head (.none [_] [_] (by decide)) ?_)
    refine .head (.space [_, _] [] ['\u00a0'] _ ['\t'] ?_) (.single ?_)
    · exact List.all_eq_true.mp (rfl : ['\u00a0', '\t'].all Text.isBlank = true)
    · exact .again [_, _, _] [] _ List.mem_cons_self (by decide)
  have hx : parse (joined ws) = .ok x := rfl
  have hx' : parse (joined ws') = .ok x := (parse_denotes.2.2.2.1 ws ws' x hl hr).mp hx
  exact ⟨hl, hr, hx, hx', (parse_denotes.2.2.2.2.1 _ _ x x hx hx').mp rfl⟩

/-- A zero stands for a set, but no list of two zeros does. -/
theorem not_parse_zero_again :
    ¬ ∀ us vs w x, w ∈ us ++ vs → IsList (us ++ vs) → parse (joined (us ++ vs)) = .ok x →
      parse (joined (us ++ w :: vs)) = .ok x := by
  intro h
  have h0 : parse (joined [['0'], ['0']]) = .ok empty :=
    h [] [['0']] ['0'] empty List.mem_cons_self ⟨by decide, by decide⟩ rfl
  exact nomatch h0

end FloatCases.FlagSet
