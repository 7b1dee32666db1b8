import FloatCases.Grammar.Pattern

/-!
The grammar of literals and of test-case lines.

A literal is a special value, a negative zero, a one-digit integer, a power of two or a number with
one and a fraction. A test case is `T(mode, input, output, error bound, flags)`, with a comment
after `//` if there is one; spaces and tabs may stand between its parts.
-/
namespace FloatCases

/-- A rule of the grammar, or the mark of the end of the text. -/
inductive Rule where
  | sign
  | suffix
  | digit
  | fraction
  | exponent
  | special
  | negativeZero
  | integer
  | power
  | fractional
  | literal
  | mode
  | input
  | output
  | errorBound
  | flag
  | flags
  | comment
  | testcase
  | finish
  deriving DecidableEq, Repr

namespace Grammar

/-- A lower-case hex digit. -/
def isHexDigit (c : Char) : Bool :=
  c.isDigit || ('a' ≤ c && c ≤ 'f')

/-- A space or a tab. -/
def isSpacing (c : Char) : Bool :=
  c = ' ' || c = '\t'

/-- A character of a rounding mode. -/
def isWordChar (c : Char) : Bool :=
  c.isAlphanum || c = '_'

/-- A character of a field of a test case: all but the delimiters and spacing. -/
def isFieldChar (c : Char) : Bool :=
  !(c = ',' || c = '(' || c = ')' || c = '|' || isSpacing c)

/-- A fixed piece of text. -/
def exactly (s : String) : Pattern Rule :=
  .text s.toList

/-- A minus sign. -/
def sign : Pattern Rule :=
  .node .sign (exactly "-")

/-- The type suffix of a literal. -/
def suffix : Pattern Rule :=
  .node .suffix (exactly "L" ||| exactly "Q")

/-- One decimal digit. -/
def digit : Pattern Rule :=
  .node .digit (.char Char.isDigit)

/-- The digits of a fraction. -/
def fraction : Pattern Rule :=
  .token .fraction (.many1 (.char isHexDigit))

/-- A signed decimal exponent. -/
def exponent : Pattern Rule :=
  .token .exponent ((exactly "+" ||| exactly "-") ++ .many1 (.char Char.isDigit))

/-- An infinity, or what is not a number; only an infinity has a sign. -/
def special : Pattern Rule :=
  .node .special ((.opt (exactly "-") ++ exactly "inf") ||| exactly "nan")

/-- A zero with a minus sign. -/
def negativeZero : Pattern Rule :=
  .node .negativeZero (exactly "-0x0" ++ .opt (exactly ".0") ++ exactly "p+0" ++ .opt suffix)

/-- A one-digit integer, with an exponent of zero. -/
def integer : Pattern Rule :=
  .node .integer
    (.opt sign ++ exactly "0x" ++ digit ++ .opt (exactly ".0") ++ exactly "p+0" ++ .opt suffix)

/-- A power of two. -/
def power : Pattern Rule :=
  .node .power (.opt sign ++ exactly "0x1p" ++ exponent ++ .opt suffix)

/-- A number between one and two, times a power of two. -/
def fractional : Pattern Rule :=
  .node .fractional
    (.opt sign ++ exactly "0x1." ++ fraction ++ exactly "p" ++ exponent ++ .opt suffix)

/-- The end of the text. -/
def finish : Pattern Rule :=
  .finish .finish

/-- A literal that is the whole text; a shape that stops before the end gives way to the next. -/
def literal : Pattern Rule :=
  .node .literal
    ((special ++ finish) ||| (negativeZero ++ finish) ||| (integer ++ finish) ||| (power ++ finish)
      ||| (fractional ++ finish))

/-- Spaces and tabs, as many as there are. -/
def spacing : Pattern Rule :=
  .many (.char isSpacing)

/-- A separator with spacing around it. -/
def separator (s : String) : Pattern Rule :=
  spacing ++ exactly s ++ spacing

/-- The name of a rounding mode. -/
def mode : Pattern Rule :=
  .token .mode (.many1 (.char isWordChar))

/-- A field of a test case that is read further by its own rules. -/
def field (label : Rule) : Pattern Rule :=
  .token label (.many1 (.char isFieldChar))

/-- Flag names with bars between them. -/
def flags : Pattern Rule :=
  .node .flags (field .flag ++ .many (separator "|" ++ field .flag))

/-- Everything that follows. -/
def comment : Pattern Rule :=
  .token .comment (.many1 (.char fun _ => true))

/-- A test case that is the whole text. -/
def testcase : Pattern Rule :=
  .node .testcase
    (exactly "T(" ++ spacing ++ mode ++ separator "," ++ field .input ++ separator ","
      ++ field .output ++ separator "," ++ field .errorBound ++ separator "," ++ flags
      ++ separator ")" ++ .opt (exactly "//" ++ spacing ++ .opt comment) ++ finish)

end Grammar

namespace Rule

/-- All rules. -/
def all : List Rule :=
  [sign, suffix, digit, fraction, exponent, special, negativeZero, integer, power, fractional,
    literal, mode, input, output, errorBound, flag, flags, comment, testcase, finish]

/-- The name of a rule. -/
def name : Rule → Text
  | sign => "sign".toList
  | suffix => "suffix".toList
  | digit => "digit".toList
  | fraction => "fraction".toList
  | exponent => "exponent".toList
  | special => "special".toList
  | negativeZero => "neg_zero".toList
  | integer => "small_int".toList
  | power => "power_of_two".toList
  | fractional => "hex_float".toList
  | literal => "literal".toList
  | mode => "mode".toList
  | input => "input".toList
  | output => "output".toList
  | errorBound => "error_bound".toList
  | flag => "flag".toList
  | flags => "flags".toList
  | comment => "comment".toList
  | testcase => "testcase".toList
  | finish => "EOI".toList

/-- The rule of a given name. -/
def ofName? (s : Text) : Option Rule :=
  all.find? (·.name = s)

/-- What a rule matches. -/
def pattern : Rule → Pattern Rule
  | sign => Grammar.sign
  | suffix => Grammar.suffix
  | digit => Grammar.digit
  | fraction => Grammar.fraction
  | exponent => Grammar.exponent
  | special => Grammar.special
  | negativeZero => Grammar.negativeZero
  | integer => Grammar.integer
  | power => Grammar.power
  | fractional => Grammar.fractional
  | literal => Grammar.literal
  | mode => Grammar.mode
  | input => Grammar.field .input
  | output => Grammar.field .output
  | errorBound => Grammar.field .errorBound
  | flag => Grammar.field .flag
  | flags => Grammar.flags
  | comment => Grammar.comment
  | testcase => Grammar.testcase
  | finish => Grammar.finish

/-- The labelled parts of what a rule matches at the start of a text. -/
def parse? (r : Rule) (s : Text) : Option (List (Tree Rule)) :=
  r.pattern.parse? s

end Rule
end FloatCases
