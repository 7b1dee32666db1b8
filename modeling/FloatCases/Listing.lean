import FloatCases.Flags
import FloatCases.Format
import FloatCases.Rounding
import FloatCases.Text.Blank

/-!
The generated listing: a header, the lines before the first row as they are, and the table of rows
with the lines between them.
-/
namespace FloatCases

/-- What takes the place of a line of a test file. -/
inductive Slot where
  /-- The row of a given number. -/
  | row (index : Nat)
  /-- Nothing. -/
  | drop
  /-- The line itself. -/
  | pass
  deriving DecidableEq, Repr

/-- What the head of a listing depends on. -/
structure Header where
  /-- The name of the generating program. -/
  generator : Text
  format : FloatFormat
  deriving DecidableEq, Repr

namespace Header

/-- The declaration of a rounding mode. -/
def modeLine (m : RoundingMode) : Text :=
  "const ".toList ++ m.name ++ " = 0x".toList ++ Nat.toDigits 16 m.value ++ ";".toList

/-- The names of flags and their bits, those of the empty set first. -/
def flagValues : List (Text × Nat) :=
  (FlagSet.emptyName, 0) :: Flag.all.map fun x => (x.name, x.bit)

/-- The length of the longest name of a flag. -/
def flagWidth : Nat :=
  (flagValues.map fun x => x.1.length).foldr max 0

/-- The declaration of a flag. -/
def flagLine (x : Text × Nat) : Text :=
  "const ".toList ++ x.1.rightpad flagWidth ' ' ++ " = 0x".toList
    ++ (Nat.toDigits 16 x.2).leftpad 2 '0' ++ ";".toList

/-- The lines at the head of a listing. -/
def lines (h : Header) : List Text :=
  [ "// This file has been automatically generated from the libc-test suite by".toList,
    "// the ".toList ++ h.generator
      ++ " script. Comments in the original file (including".toList,
    "// copyright) have all been kept intact.".toList,
    [],
    "const math = @import(\"../../math.zig\");".toList,
    "const inf = math.inf(".toList ++ h.format.name ++ ");".toList,
    "const nan = math.nan(".toList ++ h.format.name ++ ");".toList,
    [],
    "// zig fmt: off".toList,
    [] ]
    ++ RoundingMode.all.map modeLine ++ [[]] ++ flagValues.map flagLine ++ [[]]

/-- The head of a listing. -/
def render (h : Header) : Text :=
  Text.unlines h.lines

end Header

namespace Listing

/-- What stands before every line of the table. -/
def indent : Text :=
  "    ".toList

/-- Whether a slot is for a row. -/
def isRow : Slot → Bool
  | .row _ => true
  | _ => false

/-- The lines that stand before the table for a line of the file. -/
def preambleLines (x : Text × Slot) : List Text :=
  if x.2 = .drop then [] else [x.1]

/-- The lines that stand in the table for a line of the file. -/
def bodyLines (rows : List Text) (x : Text × Slot) : List Text :=
  match x.2 with
  | .row i => (rows[i]?.map (indent ++ ·)).toList
  | .drop => []
  | .pass => if Text.trim x.1 = [] then [[]] else [indent ++ Text.trim x.1]

/-- The lines before the table, with an empty line after them if there are any. -/
def preamble (entries : List (Text × Slot)) : List Text :=
  let ls := entries.flatMap preambleLines
  if ls = [] then [] else ls ++ [[]]

/-- The lines of the table. -/
def table (rows : List Text) (entries : List (Text × Slot)) : List Text :=
  "const testcases = .\x7b".toList :: entries.flatMap (bodyLines rows) ++ ["\x7d;".toList]

/--
The listing of a file. What comes before the first row is looked up in the slots alone; lines
without a slot and slots without a line count for nothing.
-/
def write (h : Header) (lines : List Text) (slots : List Slot) (rows : List Text) : Text :=
  let first := slots.findIdx isRow
  let entries := lines.zip slots
  h.render ++ Text.unlines (preamble (entries.take first) ++ table rows (entries.drop first))

end Listing
end FloatCases
