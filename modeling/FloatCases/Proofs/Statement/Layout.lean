import FloatCases.Statement
import FloatCases.Proofs.Text.Runs
import Mathlib.Logic.Function.Basic

/-!
Test cases as they are laid out on a line: the words of the fields with spacing around them. Main
statement: a text is laid out in one way only.
-/
namespace FloatCases

open Grammar (isSpacing isWordChar isFieldChar)

/-- Spaces and tabs, any number of them. -/
abbrev Gap :=
  {w : Text // ∀ c ∈ w, isSpacing c = true}

/-- A word of characters of a class. -/
abbrev Word (accepts : Char → Bool) :=
  {w : Text // w ≠ [] ∧ ∀ c ∈ w, accepts c = true}

/-- The spacing around a separator. -/
structure Break where
  before : Gap
  after : Gap

/-- A separator with the spacing around it. -/
def Break.text (b : Break) (c : Char) : Text :=
  b.before.1 ++ c :: b.after.1

/-- A comment behind two slashes. It starts where the spacing after them ends. -/
structure Remark where
  gap : Gap
  comment : Text
  stops : Text.Stops isSpacing comment

/-- What is written for a remark or for none. -/
def Remark.text : Option Remark → Text
  | none => []
  | some r => "//".toList ++ (r.gap.1 ++ r.comment)

/-- The comment of a remark, if there is one and it is not empty. -/
def Remark.comment? (r : Option Remark) : Option Text :=
  (r.map (·.comment)).filter (· ≠ [])

/-- The words of a test case and the spacing between them. -/
structure Layout where
  opening : Gap
  mode : Word isWordChar
  afterMode : Break
  input : Word isFieldChar
  afterInput : Break
  output : Word isFieldChar
  afterOutput : Break
  errorBound : Word isFieldChar
  afterErrorBound : Break
  flag : Word isFieldChar
  /-- The flags after the first, each with the bar before it. -/
  flags : List (Break × Word isFieldChar)
  closing : Break
  remark : Option Remark

namespace Layout

/-- Flags with a bar before each. -/
def barred (flags : List (Break × Word isFieldChar)) : Text :=
  flags.flatMap fun x => x.1.text '|' ++ x.2.1

/-- The flag list as it is written. -/
def flagList (l : Layout) : Text :=
  l.flag.1 ++ barred l.flags

def beforeMode (l : Layout) : Text :=
  "T(".toList ++ l.opening.1

def beforeInput (l : Layout) : Text :=
  l.beforeMode ++ l.mode.1 ++ l.afterMode.text ','

def beforeOutput (l : Layout) : Text :=
  l.beforeInput ++ l.input.1 ++ l.afterInput.text ','

def beforeErrorBound (l : Layout) : Text :=
  l.beforeOutput ++ l.output.1 ++ l.afterOutput.text ','

def beforeFlags (l : Layout) : Text :=
  l.beforeErrorBound ++ l.errorBound.1 ++ l.afterErrorBound.text ','

/-- The text that is laid out. -/
def text (l : Layout) : Text :=
  l.beforeFlags ++ l.flagList ++ l.closing.text ')' ++ Remark.text l.remark

def afterFlags (l : Layout) : Text :=
  l.closing.text ')' ++ Remark.text l.remark

def fromFlags (l : Layout) : Text :=
  l.flag.1 ++ (barred l.flags ++ l.afterFlags)

def fromErrorBound (l : Layout) : Text :=
  l.errorBound.1 ++ (l.afterErrorBound.text ',' ++ l.fromFlags)

def fromOutput (l : Layout) : Text :=
  l.output.1 ++ (l.afterOutput.text ',' ++ l.fromErrorBound)

def fromInput (l : Layout) : Text :=
  l.input.1 ++ (l.afterInput.text ',' ++ l.fromOutput)

def fromMode (l : Layout) : Text :=
  l.mode.1 ++ (l.afterMode.text ',' ++ l.fromInput)

variable {accepts : Char → Bool} {c d : Char} {r r' s : Text} {b b' : Break}
  {w w' : Word accepts}

theorem text_eq (l : Layout) : l.text = "T(".toList ++ (l.opening.1 ++ l.fromMode) := by
  simp [text, beforeFlags, beforeErrorBound, beforeOutput, beforeInput, beforeMode, flagList,
    fromMode, fromInput, fromOutput, fromErrorBound, fromFlags, afterFlags]

/-- A class without spacing and without the characters that separate words. -/
def Separated (accepts : Char → Bool) : Prop :=
  ∀ c, isSpacing c = true ∨ c ∈ [',', '|', ')'] → accepts c = false

theorem separated_isWordChar : Separated isWordChar := by
  intro c hc
  simp only [isSpacing, Bool.or_eq_true, decide_eq_true_eq, List.mem_cons, List.not_mem_nil,
    or_false] at hc
  rcases hc with (rfl | rfl) | rfl | rfl | rfl <;> decide

theorem separated_isFieldChar : Separated isFieldChar := by
  intro c hc
  simp only [isSpacing, Bool.or_eq_true, decide_eq_true_eq, List.mem_cons, List.not_mem_nil,
    or_false] at hc
  rcases hc with (rfl | rfl) | rfl | rfl | rfl <;> decide

theorem stops_word (h : Separated accepts) (w : Word accepts) (r : Text) :
    Text.Stops isSpacing (w.1 ++ r) := by
  refine Text.Stops.append w.2.1 fun c hc => ?_
  cases hs : isSpacing c with
  | false => rfl
  | true => exact absurd (w.2.2 c hc) (by simp [h c (Or.inl hs)])

theorem stops_break (h : Separated accepts) (hd : d ∈ [',', '|', ')']) (b : Break) (r : Text) :
    Text.Stops accepts (b.text d ++ r) := by
  obtain ⟨⟨before, hb⟩, after⟩ := b
  cases before with
  | nil => exact Text.stops_cons.mpr (h d (Or.inr hd))
  | cons c before => exact Text.stops_cons.mpr (h c (Or.inl (hb c List.mem_cons_self)))

/-- A break is told apart from what follows. -/
theorem break_append_inj (hd : isSpacing d = false) (hd' : isSpacing c = false)
    (hr : Text.Stops isSpacing r) (hr' : Text.Stops isSpacing r')
    (h : b.text d ++ r = b'.text c ++ r') : b = b' ∧ d = c ∧ r = r' := by
  obtain ⟨⟨before, hb⟩, ⟨after, ha⟩⟩ := b
  obtain ⟨⟨before', hb'⟩, ⟨after', ha'⟩⟩ := b'
  simp only [Break.text, List.append_assoc, List.cons_append] at h
  obtain ⟨rfl, hc⟩ := Text.run_append_inj hb (Text.stops_cons.mpr hd) hb'
    (Text.stops_cons.mpr hd') h
  obtain ⟨rfl, ht⟩ := List.cons.inj hc
  obtain ⟨rfl, rfl⟩ := Text.run_append_inj ha hr ha' hr' ht
  exact ⟨rfl, rfl, rfl⟩

/-- A field is told apart from the comma after it and from what follows. -/
theorem field_append_inj (hs : Separated accepts) (hr : Text.Stops isSpacing r)
    (hr' : Text.Stops isSpacing r')
    (h : w.1 ++ (b.text ',' ++ r) = w'.1 ++ (b'.text ',' ++ r')) : w = w' ∧ b = b' ∧ r = r' := by
  obtain ⟨hw, h⟩ := Text.run_append_inj w.2.2 (stops_break hs (by simp) b r) w'.2.2
    (stops_break hs (by simp) b' r') h
  obtain ⟨hb, -, hr⟩ := break_append_inj (by decide) (by decide) hr hr' h
  exact ⟨Subtype.ext hw, hb, hr⟩

theorem stops_barred_append (hr : Text.Stops isFieldChar r)
    (flags : List (Break × Word isFieldChar)) : Text.Stops isFieldChar (barred flags ++ r) := by
  cases flags with
  | nil => exact hr
  | cons x flags =>
    simp only [barred, List.flatMap_cons, List.append_assoc]
    exact stops_break separated_isFieldChar (by simp) x.1 _

theorem stops_barred (flags : List (Break × Word isFieldChar)) (b : Break) (r : Text) :
    Text.Stops isFieldChar (barred flags ++ (b.text ')' ++ r)) :=
  stops_barred_append (stops_break separated_isFieldChar (by simp) b r) flags

/-- The flags after the first are told apart from the parenthesis after them. -/
theorem barred_append_inj {flags flags' : List (Break × Word isFieldChar)}
    (hr : Text.Stops isSpacing r) (hr' : Text.Stops isSpacing r')
    (h : barred flags ++ (b.text ')' ++ r) = barred flags' ++ (b'.text ')' ++ r')) :
    flags = flags' ∧ b = b' ∧ r = r' := by
  induction flags generalizing flags' with
  | nil =>
    cases flags' with
    | nil =>
      obtain ⟨hb, -, hr⟩ := break_append_inj (by decide) (by decide) hr hr' h
      exact ⟨rfl, hb, hr⟩
    | cons x flags' =>
      simp only [barred, List.flatMap_nil, List.nil_append, List.flatMap_cons,
        List.append_assoc] at h
      have hw := stops_word separated_isFieldChar x.2 (barred flags' ++ (b'.text ')' ++ r'))
      obtain ⟨-, hc, -⟩ := break_append_inj (by decide) (by decide) hr hw h
      exact absurd hc (by decide)
  | cons x flags ih =>
    have hw := stops_word separated_isFieldChar x.2 (barred flags ++ (b.text ')' ++ r))
    simp only [barred, List.flatMap_cons, List.append_assoc] at h
    cases flags' with
    | nil =>
      obtain ⟨-, hc, -⟩ := break_append_inj (by decide) (by decide) hw hr' h
      exact absurd hc (by decide)
    | cons x' flags' =>
      have hw' := stops_word separated_isFieldChar x'.2 (barred flags' ++ (b'.text ')' ++ r'))
      simp only [List.flatMap_cons, List.append_assoc] at h
      obtain ⟨hb, -, h⟩ := break_append_inj (by decide) (by decide) hw hw' h
      obtain ⟨hx, h⟩ := Text.run_append_inj x.2.2.2 (stops_barred flags b r) x'.2.2.2
        (stops_barred flags' b' r') h
      obtain ⟨rfl, rfl, rfl⟩ := ih h
      exact ⟨by rw [Prod.ext hb (Subtype.ext hx)], rfl, rfl⟩

theorem remark_text_injective : Function.Injective Remark.text := by
  rintro (_ | ⟨gap, comment, hs⟩) (_ | ⟨gap', comment', hs'⟩) h
  · rfl
  · simp [Remark.text] at h
  · simp [Remark.text] at h
  · obtain ⟨hg, rfl⟩ := Text.run_append_inj gap.2 hs gap'.2 hs' (by simpa [Remark.text] using h)
    obtain rfl := Subtype.ext hg
    rfl

theorem stops_remark (r : Option Remark) : Text.Stops isSpacing (Remark.text r) := by
  cases r with
  | none => exact Text.stops_nil
  | some r => exact Text.stops_cons.mpr (by decide)

/-- A text is laid out as a test case in at most one way. -/
theorem text_injective : Function.Injective text := by
  intro l l' h
  rw [text_eq, text_eq] at h
  have h := List.append_cancel_left h
  have hm := separated_isWordChar
  have hf := separated_isFieldChar
  obtain ⟨ho, h⟩ := Text.run_append_inj l.opening.2 (stops_word hm l.mode _) l'.opening.2
    (stops_word hm l'.mode _) h
  obtain ⟨hmode, hb₁, h⟩ := field_append_inj hm (stops_word hf l.input _)
    (stops_word hf l'.input _) h
  obtain ⟨hi, hb₂, h⟩ := field_append_inj hf (stops_word hf l.output _)
    (stops_word hf l'.output _) h
  obtain ⟨hout, hb₃, h⟩ := field_append_inj hf (stops_word hf l.errorBound _)
    (stops_word hf l'.errorBound _) h
  obtain ⟨he, hb₄, h⟩ := field_append_inj hf (stops_word hf l.flag _) (stops_word hf l'.flag _) h
  obtain ⟨hx, h⟩ := Text.run_append_inj l.flag.2.2 (stops_barred l.flags l.closing _)
    l'.flag.2.2 (stops_barred l'.flags l'.closing _) h
  obtain ⟨hxs, hb₅, h⟩ := barred_append_inj (stops_remark l.remark) (stops_remark l'.remark) h
  have hr := remark_text_injective h
  cases l
  cases l'
  simp_all [Subtype.ext_iff]

end Layout
end FloatCases
