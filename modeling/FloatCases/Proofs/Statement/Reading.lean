import FloatCases.Proofs.Grammar.Matching
import FloatCases.Proofs.Statement.Layout

/-!
Reading test cases. Main statement: the texts that are read are those that are laid out as a test
case, and what is read are the words of the layout at their places.
-/
namespace FloatCases

open Grammar (isSpacing isWordChar isFieldChar)

namespace Layout

variable {accepts : Char → Bool} {label : Rule} {n k : Nat} {pre r s : Text}
  {p : Pattern Rule} {ts : List (Tree Rule)} {l : Layout}

/-- The places of flags that follow a text. -/
def flagSpans (pre : Text) : List (Break × Word isFieldChar) → List Span
  | [] => []
  | x :: flags =>
    ⟨Text.byteSize (pre ++ x.1.text '|'), x.2.1⟩ :: flagSpans (pre ++ x.1.text '|' ++ x.2.1) flags

/-- The places of a flag and of the flags after it, behind a text. -/
def flagListSpans (pre : Text) (w : Word isFieldChar) (flags : List (Break × Word isFieldChar)) :
    List Span :=
  ⟨Text.byteSize pre, w.1⟩ :: flagSpans (pre ++ w.1) flags

/-- The words of a test case and the bytes at which they start. -/
def statement (l : Layout) : Statement where
  mode := ⟨Text.byteSize l.beforeMode, l.mode.1⟩
  input := ⟨Text.byteSize l.beforeInput, l.input.1⟩
  output := ⟨Text.byteSize l.beforeOutput, l.output.1⟩
  errorBound := ⟨Text.byteSize l.beforeErrorBound, l.errorBound.1⟩
  flags := ⟨Text.byteSize l.beforeFlags, l.flagList⟩
  flagNames :=
    ⟨Text.byteSize l.beforeFlags, l.flag.1⟩ :: flagSpans (l.beforeFlags ++ l.flag.1) l.flags
  comment := Remark.comment? l.remark

/-- A place in a line as a part with a label. -/
def leaf (label : Rule) (s : Span) : Tree Rule :=
  ⟨label, s.start, s.text, []⟩

theorem matchAt_spacing (w : Gap) (hr : Text.Stops isSpacing r) :
    Grammar.spacing.matchAt n (w.1 ++ r) = some ⟨w.1, [], r⟩ :=
  Pattern.matchAt_many_char w.2 hr

theorem matchAt_separator (sep : String) {c : Char} (hsep : sep.toList = [c])
    (hc : isSpacing c = false) (b : Break) (hr : Text.Stops isSpacing r) :
    (Grammar.separator sep).matchAt n (b.text c ++ r) = some ⟨b.text c, [], r⟩ := by
  have hb : b.text c ++ r = b.before.1 ++ ([c] ++ (b.after.1 ++ r)) := by simp [Break.text]
  rw [hb, Grammar.separator, Grammar.exactly, hsep, Pattern.matchAt_assoc]
  exact Pattern.matchAt_skip (matchAt_spacing b.before (Text.stops_cons.mpr hc))
    (Pattern.matchAt_text_append _ (matchAt_spacing b.after hr))

theorem matchAt_word (label : Rule) (w : Word accepts) (hr : Text.Stops accepts r) :
    (Pattern.token label (.many1 (.char accepts))).matchAt n (w.1 ++ r) =
      some ⟨w.1, [leaf label ⟨n, w.1⟩], r⟩ :=
  Pattern.matchAt_token (Pattern.matchAt_many1_char w.2.1 w.2.2 hr)

/-- A pattern behind a part of the line that has been read. -/
theorem matchAt_behind {q : Pattern Rule} {w r' : Text} {ts' : List (Tree Rule)}
    (hp : p.matchAt 0 s = some ⟨pre, ts, r⟩)
    (hq : q.matchAt (Text.byteSize pre) r = some ⟨w, ts', r'⟩) :
    (p ++ q).matchAt 0 s = some ⟨pre ++ w, ts ++ ts', r'⟩ :=
  Pattern.matchAt_seq hp (by rwa [Nat.zero_add])

/-- A field and the comma after it, read behind a part of the line that has been read. -/
theorem matchAt_field (label : Rule) (w : Word accepts) (b : Break) (hs : Separated accepts)
    (hr : Text.Stops isSpacing r)
    (hp : p.matchAt 0 s = some ⟨pre, ts, w.1 ++ (b.text ',' ++ r)⟩) :
    (p ++ .token label (.many1 (.char accepts)) ++ Grammar.separator ",").matchAt 0 s =
      some ⟨pre ++ w.1 ++ b.text ',', ts ++ [leaf label ⟨Text.byteSize pre, w.1⟩], r⟩ := by
  have hw := matchAt_behind hp (matchAt_word label w (stops_break hs (by simp) b r))
  have hb := matchAt_behind hw (matchAt_separator "," rfl (by decide) b hr)
  rwa [List.append_nil] at hb

/-- A bar and the flag after it. -/
def barredFlag : Pattern Rule :=
  Grammar.separator "|" ++ Grammar.field .flag

theorem matchAt_barredFlag (b : Break) (w : Word isFieldChar) (hr : Text.Stops isFieldChar r) :
    barredFlag.matchAt n (b.text '|' ++ (w.1 ++ r)) =
      some ⟨b.text '|' ++ w.1, [leaf .flag ⟨n + Text.byteSize (b.text '|'), w.1⟩], r⟩ :=
  Pattern.matchAt_skip
    (matchAt_separator "|" rfl (by decide) b (stops_word separated_isFieldChar w r))
    (matchAt_word .flag w hr)

/-- There is no further flag before a parenthesis, whatever the spacing before it. -/
theorem matchAt_barredFlag_closing (b : Break) :
    barredFlag.matchAt n (b.text ')' ++ r) = none := by
  have hb : b.text ')' ++ r = b.before.1 ++ (')' :: (b.after.1 ++ r)) := by simp [Break.text]
  rw [hb]
  exact Pattern.matchAt_none_seq (Pattern.matchAt_none_seq (Pattern.matchAt_seq_none
    (matchAt_spacing b.before (Text.stops_cons.mpr (by decide)))
    (Pattern.matchAt_text_none (by simp))))

/-- Flags with a bar before each are read as far as they go. -/
theorem iterate_barredFlag (flags : List (Break × Word isFieldChar)) (pre : Text)
    (hr : Text.Stops isFieldChar r) (hn : ∀ n, barredFlag.matchAt n r = none)
    (hk : flags.length ≤ k) :
    Pattern.iterate barredFlag.matchAt k (Text.byteSize pre) (barred flags ++ r) =
      ⟨barred flags, (flagSpans pre flags).map (leaf .flag), r⟩ := by
  induction flags generalizing k pre with
  | nil => exact Pattern.iterate_none (hn _) k
  | cons x flags ih =>
    obtain ⟨k, rfl⟩ : ∃ j, k = j + 1 := ⟨k - 1, by simp at hk; omega⟩
    have hx := matchAt_barredFlag (n := Text.byteSize pre) x.1 x.2 (stops_barred_append hr flags)
    have hi := ih (k := k) (pre ++ x.1.text '|' ++ x.2.1) (Nat.le_of_succ_le_succ hk)
    have hb : Text.byteSize pre + Text.byteSize (x.1.text '|' ++ x.2.1) =
        Text.byteSize (pre ++ x.1.text '|' ++ x.2.1) := by simp
    have hs : barred (x :: flags) ++ r = x.1.text '|' ++ (x.2.1 ++ (barred flags ++ r)) := by
      simp [barred]
    rw [hs, Pattern.iterate_some hx, hb, hi]
    simp [Match.append, barred, flagSpans, leaf]

theorem length_le_length_barred (flags : List (Break × Word isFieldChar)) :
    flags.length ≤ (barred flags).length := by
  induction flags with
  | nil => exact Nat.le_refl _
  | cons x flags ih =>
    simp only [barred, Break.text, List.flatMap_cons, List.length_append, List.length_cons] at *
    omega

/-- A flag list, read behind a text up to where no further flag follows. -/
theorem matchAt_flagList (w : Word isFieldChar) (flags : List (Break × Word isFieldChar))
    (pre : Text) (hr : Text.Stops isFieldChar r) (hn : ∀ n, barredFlag.matchAt n r = none) :
    Grammar.flags.matchAt (Text.byteSize pre) (w.1 ++ (barred flags ++ r)) =
      some ⟨w.1 ++ barred flags, [⟨.flags, Text.byteSize pre, w.1 ++ barred flags,
        (flagListSpans pre w flags).map (leaf .flag)⟩], r⟩ := by
  have hw := matchAt_word (n := Text.byteSize pre) .flag w (stops_barred_append hr flags)
  have hk : flags.length ≤ (barred flags ++ r).length := by
    have := length_le_length_barred flags
    rw [List.length_append]
    omega
  have hf : (Pattern.many barredFlag).matchAt (Text.byteSize pre + Text.byteSize w.1)
      (barred flags ++ r) =
        some ⟨barred flags, (flagSpans (pre ++ w.1) flags).map (leaf .flag), r⟩ := by
    rw [Pattern.matchAt, ← Text.byteSize_append]
    exact congrArg some (iterate_barredFlag flags _ hr hn hk)
  exact Pattern.matchAt_node (Pattern.matchAt_part hw hf)

/-- The flag list of a line, read up to the parenthesis after it. -/
theorem matchAt_flags (l : Layout) :
    Grammar.flags.matchAt (Text.byteSize l.beforeFlags) l.fromFlags =
      some ⟨l.flagList, [⟨.flags, Text.byteSize l.beforeFlags, l.flagList,
        l.statement.flagNames.map (leaf .flag)⟩], l.afterFlags⟩ :=
  matchAt_flagList l.flag l.flags l.beforeFlags
    (stops_break separated_isFieldChar (by simp) l.closing _)
    fun _ => matchAt_barredFlag_closing l.closing

theorem matchAt_comment {c : Char} :
    Grammar.comment.matchAt n (c :: s) = some ⟨c :: s, [leaf .comment ⟨n, c :: s⟩], []⟩ := by
  have h := Pattern.matchAt_many1_char (ρ := Rule) (n := n) (w := c :: s) (List.cons_ne_nil c s)
    (fun _ _ => rfl) (Text.stops_nil (p := fun _ => true))
  rw [List.append_nil] at h
  exact Pattern.matchAt_token h

/-- The remark, read up to the end of the line. -/
theorem matchAt_remark (r : Option Remark) (n : Nat) :
    ∃ j, (Pattern.opt (Grammar.exactly "//" ++ Grammar.spacing ++ .opt Grammar.comment)).matchAt n
      (Remark.text r) = some ⟨Remark.text r,
        (Remark.comment? r).toList.map fun c => leaf .comment ⟨j, c⟩, []⟩ := by
  cases r with
  | none => exact ⟨0, rfl⟩
  | some r =>
    obtain ⟨gap, comment, hs⟩ := r
    have hg : (Grammar.exactly "//" ++ Grammar.spacing).matchAt n
        ("//".toList ++ (gap.1 ++ comment)) = some ⟨"//".toList ++ gap.1, [], comment⟩ :=
      Pattern.matchAt_text_append _ (matchAt_spacing gap hs)
    cases comment with
    | nil =>
      have hc := Pattern.matchAt_skip hg (Pattern.matchAt_opt_none (p := Grammar.comment) rfl)
      rw [List.append_assoc] at hc
      exact ⟨0, Pattern.matchAt_opt_some hc⟩
    | cons c comment =>
      have hc := Pattern.matchAt_skip hg (Pattern.matchAt_opt_some matchAt_comment)
      rw [List.append_assoc] at hc
      exact ⟨_, Pattern.matchAt_opt_some hc⟩

/-- What a line that is laid out as a test case is matched as. -/
theorem matchAt_testcase (l : Layout) :
    ∃ j k, Grammar.testcase.matchAt 0 l.text = some ⟨l.text, [⟨.testcase, 0, l.text,
      [leaf .mode l.statement.mode, leaf .input l.statement.input,
        leaf .output l.statement.output, leaf .errorBound l.statement.errorBound,
        ⟨.flags, l.statement.flags.start, l.statement.flags.text,
          l.statement.flagNames.map (leaf .flag)⟩]
        ++ ((Remark.comment? l.remark).toList.map fun c => leaf .comment ⟨j, c⟩)
        ++ [⟨.finish, k, [], []⟩]⟩], []⟩ := by
  have hm := separated_isWordChar
  have hf := separated_isFieldChar
  have h₀ : (Grammar.exactly "T(" ++ Grammar.spacing).matchAt 0 l.text =
      some ⟨l.beforeMode, [], l.fromMode⟩ := by
    rw [text_eq]
    exact Pattern.matchAt_text_append _
      (matchAt_spacing l.opening (stops_word hm l.mode _))
  have h₁ := matchAt_field .mode l.mode l.afterMode hm (stops_word hf l.input _) h₀
  have h₂ := matchAt_field .input l.input l.afterInput hf (stops_word hf l.output _) h₁
  have h₃ := matchAt_field .output l.output l.afterOutput hf (stops_word hf l.errorBound _) h₂
  have h₄ := matchAt_field .errorBound l.errorBound l.afterErrorBound hf
    (stops_word hf l.flag _) h₃
  have h₅ := matchAt_behind h₄ (matchAt_flags l)
  have h₆ := matchAt_behind h₅
    (matchAt_separator ")" rfl (by decide) l.closing (stops_remark l.remark))
  obtain ⟨j, hj⟩ := matchAt_remark l.remark (Text.byteSize
    (l.beforeFlags ++ l.flagList ++ l.closing.text ')'))
  have h₇ := matchAt_behind h₆ hj
  have h₈ := matchAt_behind h₇ (Pattern.matchAt_finish Rule.finish _)
  rw [List.append_nil] at h₈
  exact ⟨j, _, Pattern.matchAt_node h₈⟩

/-- A text that is laid out as a test case is read as the words of the layout. -/
theorem read?_text (l : Layout) : Statement.read? l.text = some l.statement := by
  obtain ⟨j, k, h⟩ := matchAt_testcase l
  simp only [Statement.read?, Rule.parse?, Pattern.parse?, Rule.pattern, h, Option.map_some,
    List.head?_cons, Option.bind_eq_bind, Option.bind_some]
  cases hc : Remark.comment? l.remark with
  | none =>
    simp [Statement.ofTree?, Tree.child?, Tree.textOf?, leaf, Span.ofTree, statement, hc,
      Function.comp_def]
  | some c =>
    simp [Statement.ofTree?, Tree.child?, Tree.textOf?, leaf, Span.ofTree, statement, hc,
      Function.comp_def]

theorem mem_language_spacing : s ∈ Grammar.spacing.language ↔ ∀ c ∈ s, isSpacing c = true :=
  Pattern.mem_language_many_char

theorem mem_language_separator {sep : String} {c : Char} (hsep : sep.toList = [c]) :
    s ∈ (Grammar.separator sep).language ↔ ∃ b : Break, s = b.text c := by
  simp only [Grammar.separator, Pattern.mem_language_seq, mem_language_spacing, Grammar.exactly,
    Pattern.mem_language_text, hsep]
  constructor
  · rintro ⟨_, ⟨w, hw, _, rfl, rfl⟩, w', hw', rfl⟩
    exact ⟨⟨⟨w, hw⟩, ⟨w', hw'⟩⟩, by simp [Break.text]⟩
  · rintro ⟨⟨⟨w, hw⟩, ⟨w', hw'⟩⟩, rfl⟩
    exact ⟨_, ⟨w, hw, _, rfl, rfl⟩, w', hw', by simp [Break.text]⟩

theorem mem_language_word :
    s ∈ (Pattern.token label (.many1 (.char accepts))).language ↔
      ∃ w : Word accepts, s = w.1 := by
  rw [Pattern.mem_language_token, Pattern.mem_language_many1_char]
  exact ⟨fun h => ⟨⟨s, h⟩, rfl⟩, fun ⟨w, hw⟩ => hw ▸ w.2⟩

theorem exists_barred_eq (h : s ∈ (Pattern.many barredFlag).language) :
    ∃ flags, s = barred flags := by
  obtain ⟨ws, rfl, hws⟩ := Language.mem_kstar.mp h
  clear h
  induction ws with
  | nil => exact ⟨[], rfl⟩
  | cons w ws ih =>
    obtain ⟨hw, hws⟩ := List.forall_mem_cons.mp hws
    obtain ⟨flags, hf⟩ := ih hws
    obtain ⟨_, hb, _, hf', rfl⟩ := Pattern.mem_language_seq.mp hw
    obtain ⟨b, rfl⟩ := (mem_language_separator (c := '|') rfl).mp hb
    obtain ⟨w, rfl⟩ := mem_language_word.mp hf'
    exact ⟨⟨b, w⟩ :: flags, by simp [barred, hf]⟩

/-- A text of the language of flag lists is a flag and others with a bar before each. -/
theorem exists_flagList_text_eq (h : s ∈ Grammar.flags.language) :
    ∃ (w : Word isFieldChar) (flags : List (Break × Word isFieldChar)),
      s = w.1 ++ barred flags := by
  obtain ⟨_, hw, _, hf, rfl⟩ := Pattern.mem_language_seq.mp (Pattern.mem_language_node.mp h)
  obtain ⟨w, rfl⟩ := mem_language_word.mp hw
  obtain ⟨flags, rfl⟩ := exists_barred_eq hf
  exact ⟨w, flags, rfl⟩

/-- Behind two slashes stands spacing, as much as there is, and then the comment. -/
theorem exists_remark_eq
    (h : s ∈ (Pattern.opt (Grammar.exactly "//" ++ Grammar.spacing
      ++ .opt Grammar.comment)).language) : ∃ r, s = Remark.text r := by
  rcases Pattern.mem_language_opt.mp h with rfl | h
  · exact ⟨none, rfl⟩
  · obtain ⟨_, ⟨_, rfl, w, -, rfl⟩, r, -, rfl⟩ := Pattern.mem_language_seq.mp h
    refine ⟨some ⟨⟨(w ++ r).takeWhile isSpacing, List.all_eq_true.mp List.all_takeWhile⟩,
      (w ++ r).dropWhile isSpacing, Text.stops_dropWhile⟩, ?_⟩
    simp [Remark.text]

theorem exists_field_eq
    (h : s ∈ (p ++ .token label (.many1 (.char accepts)) ++ Grammar.separator ",").language) :
    ∃ pre ∈ p.language, ∃ (w : Word accepts) (b : Break), s = pre ++ w.1 ++ b.text ',' := by
  obtain ⟨_, hp, _, hb, rfl⟩ := Pattern.mem_language_seq.mp h
  obtain ⟨pre, hpre, _, hw, rfl⟩ := Pattern.mem_language_seq.mp hp
  obtain ⟨w, rfl⟩ := mem_language_word.mp hw
  obtain ⟨b, rfl⟩ := (mem_language_separator (c := ',') rfl).mp hb
  exact ⟨pre, hpre, w, b, rfl⟩

/-- A text of the language of test cases is laid out as one. -/
theorem exists_text_eq
    (h : s ∈ (Grammar.exactly "T(" ++ Grammar.spacing ++ Grammar.mode ++ Grammar.separator ","
      ++ Grammar.field .input ++ Grammar.separator "," ++ Grammar.field .output
      ++ Grammar.separator "," ++ Grammar.field .errorBound ++ Grammar.separator ","
      ++ Grammar.flags ++ Grammar.separator ")"
      ++ .opt (Grammar.exactly "//" ++ Grammar.spacing ++ .opt Grammar.comment)).language) :
    ∃ l : Layout, l.text = s := by
  obtain ⟨_, h₁, _, hr, rfl⟩ := Pattern.mem_language_seq.mp h
  obtain ⟨remark, rfl⟩ := exists_remark_eq hr
  obtain ⟨_, h₂, _, hc, rfl⟩ := Pattern.mem_language_seq.mp h₁
  obtain ⟨closing, rfl⟩ := (mem_language_separator (c := ')') rfl).mp hc
  obtain ⟨_, h₃, _, hx, rfl⟩ := Pattern.mem_language_seq.mp h₂
  obtain ⟨flag, flags, rfl⟩ := exists_flagList_text_eq hx
  obtain ⟨_, h₄, errorBound, afterErrorBound, rfl⟩ := exists_field_eq h₃
  obtain ⟨_, h₅, output, afterOutput, rfl⟩ := exists_field_eq h₄
  obtain ⟨_, h₆, input, afterInput, rfl⟩ := exists_field_eq h₅
  obtain ⟨_, h₇, mode, afterMode, rfl⟩ := exists_field_eq h₆
  obtain ⟨_, rfl, w, hw, rfl⟩ := Pattern.mem_language_seq.mp h₇
  exact ⟨⟨⟨w, mem_language_spacing.mp hw⟩, mode, afterMode, input, afterInput, output, afterOutput,
    errorBound, afterErrorBound, flag, flags, closing, remark⟩, rfl⟩

/-- A text that matches the rule of a test case is laid out as one. -/
theorem exists_text_eq_of_parse? (h : Rule.testcase.parse? s ≠ none) :
    ∃ l : Layout, l.text = s := by
  by_contra hn
  have hm : Grammar.testcase.matchAt 0 s = none :=
    Pattern.matchAt_node_none (Pattern.matchAt_finish_none fun hs => hn (exists_text_eq hs))
  exact h (by simp [Rule.parse?, Pattern.parse?, Rule.pattern, hm])

end Layout

/-- What is read is a test case, and what is read of it are the words of its layout. -/
theorem Statement.read?_eq_some_iff {s : Text} {st : Statement} :
    Statement.read? s = some st ↔ ∃ l : Layout, l.text = s ∧ l.statement = st := by
  constructor
  · intro h
    have hp : Rule.testcase.parse? s ≠ none := by
      intro hp
      simp [Statement.read?, hp] at h
    obtain ⟨l, rfl⟩ := Layout.exists_text_eq_of_parse? hp
    exact ⟨l, rfl, Option.some.inj (l.read?_text.symm.trans h)⟩
  · rintro ⟨l, rfl, rfl⟩
    exact l.read?_text

end FloatCases
