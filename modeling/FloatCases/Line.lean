import FloatCases.Fault
import FloatCases.Flags
import FloatCases.Literal
import FloatCases.Rounding
import FloatCases.Statement

/-!
The lines of a test file by kind. A line that does not have the form of a test case is never
refused; one that does is checked field by field, and only then held against the rounding modes
that are kept.
-/
namespace FloatCases

/-- A test case with its literals in canonical spelling. -/
structure Testcase where
  mode : RoundingMode
  input : Text
  output : Text
  errorBound : Text
  flags : FlagSet
  comment : Option Text
  deriving DecidableEq, Repr

namespace Statement

/-- The fault of a part of a line. -/
def faultAt (text : Text) (s : Span) (cause : Cause) : Fault :=
  ⟨cause, text, s.start, s.stop⟩

/-- The rounding mode that a part of a line names. -/
def checkMode (text : Text) (s : Span) : Except Fault RoundingMode :=
  match RoundingMode.ofName? s.text with
  | none => .error (faultAt text s (.unknownMode s.text))
  | some m => .ok m

/-- The canonical spelling of the literal in a part of a line. -/
def checkLiteral (f : FloatFormat) (text : Text) (s : Span) : Except Fault Text :=
  match Literal.canonicalize f s.text with
  | .error _ => .error (faultAt text s (.malformedLiteral s.text))
  | .ok t => .ok t

/-- The part of a flag list to blame for a name: the first with just this text, or else the list. -/
def blame (s : Statement) (name : Text) : Span :=
  (s.flagNames.find? (·.text = name)).getD s.flags

/-- The flags that a statement lists. -/
def checkFlags (text : Text) (s : Statement) : Except Fault FlagSet :=
  match FlagSet.parse s.flags.text with
  | .error e => .error (faultAt text (s.blame e.name) (.unknownFlag e.name))
  | .ok x => .ok x

/-- The comment of a statement without white space at its end, unless nothing is left of it. -/
def trimmedComment (s : Statement) : Option Text :=
  (s.comment.map Text.trimEnd).filter (· ≠ [])

/--
The test case that a statement in a line stands for. The first fault in the order of the fields is
reported; an error bound is always a single-precision literal.
-/
def check (f : FloatFormat) (text : Text) (s : Statement) : Except Fault Testcase := do
  let mode ← checkMode text s.mode
  let input ← checkLiteral f text s.input
  let output ← checkLiteral f text s.output
  let errorBound ← checkLiteral .f32 text s.errorBound
  let flags ← checkFlags text s
  return ⟨mode, input, output, errorBound, flags, s.trimmedComment⟩

end Statement

/-- A line of a test file by kind. -/
inductive Line where
  | blank
  | comment
  | unrecognized
  /-- A test case for a rounding mode that is not kept. -/
  | filtered (mode : RoundingMode)
  | testcase (t : Testcase)
  deriving DecidableEq, Repr

namespace Line

/-- A test case, or its rounding mode if that is not kept. -/
def ofTestcase (modes : ModeSet) (t : Testcase) : Line :=
  if modes.contains t.mode then testcase t else filtered t.mode

/-- Reads a line of a file with a given format. -/
def read (f : FloatFormat) (modes : ModeSet) (line : Text) : Except Fault Line :=
  let text := Text.trim line
  if text = [] then .ok blank
  else if ['/', '/'].isPrefixOf text then .ok comment
  else
    match Statement.read? text with
    | none => .ok unrecognized
    | some s => (s.check f text).map (ofTestcase modes)

/-- The test case of a line that is kept. -/
def testcase? : Line → Option Testcase
  | testcase t => some t
  | _ => none

/-- Whether a line is a test case that is not kept. -/
def isFiltered : Line → Bool
  | filtered _ => true
  | _ => false

end Line
end FloatCases
