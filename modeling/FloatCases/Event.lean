import FloatCases.Format
import FloatCases.Rounding
import FloatCases.Text.Basic

/-!
What the program tells about the conversion of a file.
-/
namespace FloatCases

/-- How much an event matters. -/
inductive Level where
  | trace
  | debug
  | info
  | warn
  | error
  deriving DecidableEq, Repr

namespace Level

/-- All levels, from the least to the most important. -/
def all : List Level :=
  [trace, debug, info, warn, error]

/-- The name of a level in the log. -/
def name : Level → Text
  | trace => "TRACE".toList
  | debug => "DEBUG".toList
  | info => "INFO".toList
  | warn => "WARN".toList
  | error => "ERROR".toList

/-- The place of a level in the order of importance. -/
def rank : Level → Nat
  | trace => 0
  | debug => 1
  | info => 2
  | warn => 3
  | error => 4

end Level

/-- Something worth telling about a conversion. -/
inductive Event where
  /-- A text does not match the grammar of test cases. -/
  | unmatched (text : Text)
  | inferred (format : FloatFormat)
  | unrecognized (line : Nat) (text : Text)
  | skipped (mode : RoundingMode)
  | summary (kept filtered unknown : Nat)
  | converted (kept : Nat) (format : FloatFormat)
  deriving DecidableEq, Repr

namespace Event

/-- How much an event matters. -/
def level : Event → Level
  | unmatched _ => .trace
  | unrecognized _ _ => .warn
  | converted _ _ => .info
  | inferred _ | skipped _ | summary _ _ _ => .debug

/-- The part of the program that tells of an event, by the name that settings of the log use. -/
def origin : Event → Text
  | unmatched _ | skipped _ => "fptab_core::parser::parser".toList
  | inferred _ | unrecognized _ _ | summary _ _ _ => "fptab_core::api::converter".toList
  | converted _ _ => "fptab".toList

/-- An event in words, given those for a text that does not match the grammar. -/
def message (mismatch : Text → Text) : Event → Text
  | unmatched text => "no test-case match: ".toList ++ mismatch text
  | inferred format => "Inferred float type ".toList ++ format.name
  | unrecognized line text => "Unrecognised line ".toList ++ Text.ofNat line ++ ": ".toList ++ text
  | skipped mode => "Skipping testcase with rounding mode ".toList ++ mode.name
  | summary kept filtered unknown =>
    Text.ofNat kept ++ " test cases kept, ".toList ++ Text.ofNat filtered ++ " filtered, ".toList
      ++ Text.ofNat unknown ++ " unrecognised lines".toList
  | converted kept format =>
    "Converted ".toList ++ Text.ofNat kept ++ " test cases as ".toList ++ format.name

end Event
end FloatCases
