import FloatCases.Text.Basic

/-!
What can be wrong with a line that has the form of a test case.
-/
namespace FloatCases

/-- The reason for which a test case is refused. -/
inductive Cause where
  | malformedLiteral (literal : Text)
  | unknownMode (name : Text)
  | unknownFlag (name : Text)
  deriving DecidableEq, Repr

namespace Cause

/-- The code of a reason. -/
def code : Cause → Text
  | malformedLiteral _ => "C001".toList
  | unknownMode _ => "C002".toList
  | unknownFlag _ => "C003".toList

/-- A reason in words. -/
def message : Cause → Text
  | malformedLiteral literal => "malformed literal ".toList ++ Text.quoted literal
  | unknownMode name => "unknown rounding mode ".toList ++ Text.quoted name
  | unknownFlag name => "unknown exception flag ".toList ++ Text.quoted name

/-- What would have been right. -/
def help : Cause → Text
  | malformedLiteral _ =>
    "Literals must be inf, -inf, nan, -0x0p+0, 0x<digit>p+0, 0x1p<exp> or 0x1.<hex>p<exp>".toList
  | unknownMode _ => "Use one of RN, RU, RD, RZ".toList
  | unknownFlag _ =>
    "Use 0 or a |-separated list of INVALID, INEXACT, DIVBYZERO, OVERFLOW, UNDERFLOW".toList

end Cause

/-- A refused line: the reason, the text, and the range of bytes in it that is to blame. -/
structure Fault where
  cause : Cause
  text : Text
  start : Nat
  stop : Nat
  deriving DecidableEq, Repr

/-- The piece of the text that is to blame. -/
def Fault.snippet (e : Fault) : Text :=
  e.text.slice e.start e.stop

/-- A refused line and its number in the file, counted from one. -/
structure LineFault where
  line : Nat
  fault : Fault
  deriving DecidableEq, Repr

/-- The reason in words, with the number of the line. -/
def LineFault.message (e : LineFault) : Text :=
  "line ".toList ++ Text.ofNat e.line ++ ": ".toList ++ e.fault.cause.message

end FloatCases
