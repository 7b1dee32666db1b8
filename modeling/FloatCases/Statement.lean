import FloatCases.Grammar.Rule

/-!
The parts of a test-case line, as they are written.
-/
namespace FloatCases

/-- A part of a line and the byte at which it starts. -/
structure Span where
  start : Nat
  text : Text
  deriving DecidableEq, Repr

namespace Span

/-- The byte at which a part ends. -/
def stop (s : Span) : Nat :=
  s.start + Text.byteSize s.text

/-- The place and text of a labelled part. -/
def ofTree (t : Tree Rule) : Span :=
  ⟨t.start, t.text⟩

end Span

/-- The parts of a test-case line. -/
structure Statement where
  mode : Span
  input : Span
  output : Span
  errorBound : Span
  /-- The whole flag list. -/
  flags : Span
  /-- The names in the flag list. -/
  flagNames : List Span
  comment : Option Text
  deriving DecidableEq, Repr

namespace Statement

/-- The statement that a part with the label of a test case stands for. -/
def ofTree? (t : Tree Rule) : Option Statement := do
  let flags ← t.child? .flags
  return {
    mode := .ofTree (← t.child? .mode)
    input := .ofTree (← t.child? .input)
    output := .ofTree (← t.child? .output)
    errorBound := .ofTree (← t.child? .errorBound)
    flags := .ofTree flags
    flagNames := flags.children.map .ofTree
    comment := t.textOf? .comment }

/-- Reads a text that is one test case. -/
def read? (s : Text) : Option Statement := do
  ofTree? (← (← Rule.testcase.parse? s).head?)

end Statement
end FloatCases
