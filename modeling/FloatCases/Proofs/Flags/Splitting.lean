import FloatCases.Proofs.Flags.Denotation
import FloatCases.Proofs.Statement.Places

/-!
Flag lists as the grammar reads them and as they are split at bars. Main statement: both find the
same names up to white space, and what the grammar finds lies in the list one behind the other, with
a bar and spacing between each two.
-/
namespace FloatCases

open Grammar (isFieldChar)

namespace Span

variable {s : Text} {x y z : Span}

/-- A part ends before another starts. -/
def Before (x y : Span) : Prop :=
  x.stop < y.start

/-- Between a part of a text and another stands a bar with spacing around it, and nothing else. -/
def Follows (s : Text) (x y : Span) : Prop :=
  ∃ b : Break, s.slice x.stop y.start = b.text '|'

theorem Before.trans (h : x.Before y) (h' : y.Before z) : x.Before z := by
  simp only [Before, stop] at *
  omega

instance : Trans Before Before Before where
  trans := Before.trans

end Span

namespace Layout

variable {pre post s : Text}

theorem byteSize_break_pos (b : Break) (c : Char) : 0 < Text.byteSize (b.text c) := by
  have hc := c.utf8Size_pos
  rw [Break.text, Text.byteSize_append, Text.byteSize]
  omega

theorem flagListSpans_cons (pre : Text) (w : Word isFieldChar) (x : Break × Word isFieldChar)
    (flags : List (Break × Word isFieldChar)) :
    flagListSpans pre w (x :: flags) =
      ⟨Text.byteSize pre, w.1⟩ :: flagListSpans (pre ++ w.1 ++ x.1.text '|') x.2 flags :=
  rfl

/-- Of two flags one behind the other the second is where the first and the break end. -/
theorem before_and_follows (w : Word isFieldChar) (b : Break) (v : Text)
    (hs : s = pre ++ w.1 ++ b.text '|' ++ post) :
    Span.Before ⟨Text.byteSize pre, w.1⟩ ⟨Text.byteSize (pre ++ w.1 ++ b.text '|'), v⟩ ∧
      Span.Follows s ⟨Text.byteSize pre, w.1⟩ ⟨Text.byteSize (pre ++ w.1 ++ b.text '|'), v⟩ := by
  have hb := byteSize_break_pos b '|'
  constructor
  · simp only [Span.Before, Span.stop, Text.byteSize_append]
    omega
  · refine ⟨b, ?_⟩
    have h := Text.slice_append (pre ++ w.1) (b.text '|') post
    rw [← hs, ← Text.byteSize_append, Text.byteSize_append pre] at h
    exact h

/-- The flags of a list are one behind the other. -/
theorem isChain_flagListSpans (w : Word isFieldChar) (flags : List (Break × Word isFieldChar))
    (hs : s = pre ++ w.1 ++ barred flags) :
    List.IsChain (fun x y => x.Before y ∧ Span.Follows s x y) (flagListSpans pre w flags) := by
  -- A flag and the bar behind it become part of what lies before the rest.
  induction flags generalizing pre w with
  | nil => exact .singleton _
  | cons x flags ih =>
    have hx : s = pre ++ w.1 ++ x.1.text '|' ++ (x.2.1 ++ barred flags) := by
      simp [hs, barred]
    rw [flagListSpans_cons]
    exact .cons_cons (before_and_follows w x.1 _ hx) (ih x.2 (by simp [hx]))

/-- The last flag of a list ends where the list does. -/
theorem stop_getLast?_flagListSpans (pre : Text) (w : Word isFieldChar)
    (flags : List (Break × Word isFieldChar)) :
    (flagListSpans pre w flags).getLast?.map Span.stop =
      some (Text.byteSize (pre ++ w.1 ++ barred flags)) := by
  induction flags generalizing pre w with
  | nil => simp [flagListSpans, flagSpans, barred, Span.stop]
  | cons x flags ih =>
    have hx : pre ++ w.1 ++ barred (x :: flags) =
        pre ++ w.1 ++ x.1.text '|' ++ x.2.1 ++ barred flags := by simp [barred]
    rw [flagListSpans_cons, hx, ← ih]
    rfl

theorem liesIn_flagListSpans (w : Word isFieldChar) (flags : List (Break × Word isFieldChar)) :
    ∀ x ∈ flagListSpans [] w flags, x.LiesIn (w.1 ++ barred flags) := by
  intro x hx
  rcases List.mem_cons.mp hx with rfl | hx
  · exact ⟨[], barred flags, rfl, rfl⟩
  · obtain ⟨a, b, he, hn⟩ := exists_barred_eq_append hx
    exact ⟨w.1 ++ a, b, by simp [he], hn⟩

theorem matchAt_barredFlag_nil (n : Nat) : barredFlag.matchAt n [] = none :=
  rfl

/-- What a flag list is read as that is the whole text. -/
theorem parse?_flags (w : Word isFieldChar) (flags : List (Break × Word isFieldChar)) :
    Rule.flags.parse? (w.1 ++ barred flags) = some [⟨.flags, 0, w.1 ++ barred flags,
      (flagListSpans [] w flags).map (leaf .flag)⟩] := by
  have h := matchAt_flagList w flags [] Text.stops_nil matchAt_barredFlag_nil
  rw [List.append_nil] at h
  exact congrArg (Option.map Match.trees) h

/-- A text that the rule of flag lists matches in full is a flag and others behind bars. -/
theorem exists_flagList_of_parse? {t : Tree Rule} (h : Rule.flags.parse? s = some [t])
    (hs : t.text = s) : ∃ (w : Word isFieldChar) (flags : List (Break × Word isFieldChar)),
      s = w.1 ++ barred flags ∧ t.children = (flagListSpans [] w flags).map (leaf .flag) := by
  obtain ⟨m, hm, hts⟩ := Option.map_eq_some_iff.mp h
  obtain ⟨m, hp, rfl⟩ := Option.map_eq_some_iff.mp hm
  obtain rfl : _ = t := List.head_eq_of_cons_eq hts
  have hl : m.consumed ∈ Grammar.flags.language := (Pattern.describes_of_matchAt hp).2
  have hs : m.consumed = s := hs
  obtain ⟨w, flags, hw⟩ := exists_flagList_text_eq (hs ▸ hl)
  have ht := parse?_flags w flags
  rw [← hw, h] at ht
  obtain ⟨-, -, -, hc⟩ := Tree.mk.inj (List.head_eq_of_cons_eq (Option.some.inj ht))
  exact ⟨w, flags, hw, hc⟩

end Layout

namespace FlagSet

open Layout (flagListSpans exists_flagList_of_parse?)

variable {s : Text} {t : Tree Rule}

/--
The flags that the grammar finds in a whole list are, without white space around them, the pieces of
the list between bars. They lie in it at their places, the first at its start and the last at its
end, each before the next, with one bar and spacing between the two.
-/
theorem flags_split_alike (h : Rule.flags.parse? s = some [t]) (hs : t.text = s) :
    (∀ c ∈ t.children, c.label = .flag) ∧
    t.children.map (fun c => Text.trim c.text) = pieces s ∧
    (∀ x ∈ t.children.map Span.ofTree, x.LiesIn s) ∧
    (t.children.map Span.ofTree).Pairwise Span.Before ∧
    (t.children.map Span.ofTree).IsChain (Span.Follows s) ∧
    (t.children.map Span.ofTree).head?.map Span.start = some 0 ∧
    (t.children.map Span.ofTree).getLast?.map Span.stop = some (Text.byteSize s) := by
  obtain ⟨w, flags, hw, hc⟩ := exists_flagList_of_parse? h hs
  have hspans : t.children.map Span.ofTree = flagListSpans [] w flags := by
    rw [hc, List.map_map]
    exact List.map_id _
  have hchain : (flagListSpans [] w flags).IsChain fun x y => x.Before y ∧ Span.Follows s x y :=
    Layout.isChain_flagListSpans w flags hw
  refine ⟨?_, ?_, ?_, ?_, ?_, ?_, ?_⟩
  · rw [hc, List.forall_mem_map]
    exact fun _ _ => rfl
  · have hp := Layout.map_trim_splitOn_barred ⟨[], by simp⟩ w flags
    rw [List.nil_append, ← hw] at hp
    rw [pieces, hp, hc, List.map_map, flagListSpans, List.map_cons]
    have hm := congrArg (List.map Text.trim) (Layout.map_text_flagSpans ([] ++ w.1) flags)
    simpa [Function.comp_def, Layout.leaf] using hm
  · rw [hspans, hw]
    exact Layout.liesIn_flagListSpans w flags
  · rw [hspans]
    exact (hchain.imp fun _ _ h => h.1).pairwise
  · rw [hspans]
    exact hchain.imp fun _ _ h => h.2
  · rw [hspans]
    rfl
  · rw [hspans, Layout.stop_getLast?_flagListSpans, hw]
    rfl

/-- Three flags, one of them with other white space at its end and one of nothing else. -/
theorem flags_split_alike_blank :
    let s := "INEXACT\u00a0 |\tOVERFLOW|\u3000".toList
    ∃ t, Rule.flags.parse? s = some [t] ∧ t.text = s ∧
      t.children.map (fun c => Text.trim c.text) =
        ["INEXACT".toList, "OVERFLOW".toList, []] ∧
      (t.children.map Span.ofTree).Pairwise Span.Before := by
  intro s
  have h : Rule.flags.parse? s = some [_] := rfl
  obtain ⟨-, hp, -, hb, -⟩ := flags_split_alike h rfl
  exact ⟨_, h, rfl, hp, hb⟩

end FlagSet
end FloatCases
