import FloatCases.Grammar.Rule

/-!
Why a text does not match a rule. What counts is the furthest place at which a labelled part was
tried in vain; a part is named rather than the parts inside of it, unless just one of these was
tried at the same place.
-/
namespace FloatCases

variable {ρ : Type}

/-- The furthest byte at which labelled parts were tried in vain, and these parts in order. -/
structure Attempts (ρ : Type) where
  place : Nat
  labels : List ρ

namespace Attempts

/-- Nothing has been tried yet. -/
def nothing : Attempts ρ :=
  ⟨0, []⟩

/-- The number of parts that were tried at a place, as far as it counts. -/
def countAt (a : Attempts ρ) (n : Nat) : Nat :=
  if a.place = n then a.labels.length else 0

/-- What counts after a part was tried in vain at a place, from what did before and inside of it. -/
def note (before inside : Attempts ρ) (label : ρ) (n : Nat) : Attempts ρ :=
  if inside.countAt n = before.countAt n + 1 ∨ n < inside.place then inside
  else if n = inside.place then ⟨n, inside.labels.take (before.countAt n) ++ [label]⟩
  else ⟨n, [label]⟩

end Attempts

namespace Pattern

/-- The attempts of a step that is taken over and over, at most `k` times, until it fails. -/
def iterateAttempts (step : Nat → Text → Option (Match ρ))
    (attempts : Nat → Text → Attempts ρ → Attempts ρ) :
    Nat → Nat → Text → Attempts ρ → Attempts ρ
  | 0, _, _, a => a
  | k + 1, n, s, a =>
    match step n s with
    | none => attempts n s a
    | some m =>
      iterateAttempts step attempts k (n + Text.byteSize m.consumed) m.rest (attempts n s a)

/-- What was tried in vain, after a pattern at the head of a text that starts at byte `n`. -/
def attempts : Pattern ρ → Nat → Text → Attempts ρ → Attempts ρ
  | char _, _, _, a | text _, _, _, a => a
  | seq p q, n, s, a =>
    match p.matchAt n s with
    | none => p.attempts n s a
    | some m => q.attempts (n + Text.byteSize m.consumed) m.rest (p.attempts n s a)
  | alt p q, n, s, a =>
    if (p.matchAt n s).isSome then p.attempts n s a else q.attempts n s (p.attempts n s a)
  | opt p, n, s, a => p.attempts n s a
  | many p, n, s, a => iterateAttempts p.matchAt p.attempts s.length n s a
  | node label p, n, s, a =>
    if (p.matchAt n s).isSome then p.attempts n s a else a.note (p.attempts n s a) label n
  | token label p, n, s, a => if (p.matchAt n s).isSome then a else a.note a label n
  | finish label, n, s, a => if s = [] then a else a.note a label n

end Pattern

namespace Rule

/-- The rules in the order in which they are named together: the end of the text comes first. -/
def listed : List Rule :=
  finish :: all.dropLast

/-- Names as a list in words. -/
def enumerate : List Text → Text
  | [] => []
  | [s] => s
  | [s, t] => s ++ " or ".toList ++ t
  | ss => List.intercalate ", ".toList ss.dropLast ++ ", or ".toList ++ ss.getLast?.getD []

/-- A text of one line as it is shown: a carriage return is drawn where it is to blame. -/
def shownLine (s : Text) (column : Nat) : Text :=
  if s[column]? = some '\r' then s.map fun c => if c = '\r' then '␍' else c
  else s.filter (· ≠ '\r')

/-- Why a text of one line does not match a rule: the place, the line with a mark, and the rules. -/
def mismatch (r : Rule) (s : Text) : Text :=
  let a := r.pattern.attempts 0 s .nothing
  let column := (Text.takeBytes s a.place).length
  let line := shownLine s column
  let lead := (line.take column).map fun c => if c = '\t' then '\t' else ' '
  let expected := enumerate ((listed.filter (· ∈ a.labels)).map name)
  List.intercalate ['\n'] [
    " --> 1:".toList ++ Text.ofNat (column + 1),
    "  |".toList,
    "1 | ".toList ++ line,
    "  | ".toList ++ lead ++ "^---".toList,
    "  |".toList,
    "  = expected ".toList ++ expected ]

end Rule
end FloatCases
