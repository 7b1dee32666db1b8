import FloatCases.Event
import FloatCases.Evidence.Inference
import FloatCases.Line
import FloatCases.Listing
import FloatCases.Table

/-!
The conversion of a test file into a listing. The lines are read in order up to the first fault, and
everything else is a function of their kinds.
-/
namespace FloatCases

/-- What a conversion can be told. -/
structure Options where
  /-- The format of the file; it is inferred if none is given. -/
  format : Option FloatFormat
  /-- The rounding modes whose test cases are kept. -/
  modes : ModeSet
  generator : Text
  deriving DecidableEq, Repr

/-- A line of a file by kind, with its number and its text. -/
structure Entry where
  number : Nat
  text : Text
  line : Line
  deriving DecidableEq, Repr

/-- What is told when a line is read: that the grammar misses it, or that it is not kept. -/
def Line.events (text : Text) : Line → List Event
  | .unrecognized =>
    if (Rule.testcase.parse? (Text.trim text)).isNone then [.unmatched (Text.trim text)] else []
  | .filtered mode => [.skipped mode]
  | _ => []

/-- What is told about a line of a file. -/
def Entry.events (x : Entry) : List Event :=
  x.line.events x.text
    ++ if x.line = .unrecognized then [.unrecognized x.number (Text.trim x.text)] else []

/-- The lines of a file up to the first fault, and that fault if there is one. -/
structure Reading where
  entries : List Entry
  fault : Option LineFault
  deriving DecidableEq, Repr

namespace Reading

/-- Reads lines, the first of which has a given number. -/
def ofLines (f : FloatFormat) (modes : ModeSet) : Nat → List Text → Reading
  | _, [] => ⟨[], none⟩
  | n, text :: rest =>
    match Line.read f modes text with
    | .error e => ⟨[], some ⟨n, e⟩⟩
    | .ok line =>
      let r := ofLines f modes (n + 1) rest
      ⟨⟨n, text, line⟩ :: r.entries, r.fault⟩

/-- The test cases that are kept. -/
def testcases (r : Reading) : List Testcase :=
  r.entries.filterMap (·.line.testcase?)

/-- The number of test cases that are not kept. -/
def filtered (r : Reading) : Nat :=
  r.entries.countP (·.line.isFiltered)

/-- The numbers of the lines that were not recognized. -/
def unrecognized (r : Reading) : List Nat :=
  (r.entries.filter (·.line = .unrecognized)).map (·.number)

/-- What is told about the lines, in order. -/
def events (r : Reading) : List Event :=
  r.entries.flatMap Entry.events

/-- The slots of lines by kind, with the rows numbered from `k` on. -/
def slotsFrom : Nat → List Line → List Slot
  | _, [] => []
  | k, .testcase _ :: rest => .row k :: slotsFrom (k + 1) rest
  | k, .filtered _ :: rest => .drop :: slotsFrom k rest
  | k, _ :: rest => .pass :: slotsFrom k rest

/-- The slots of the lines. -/
def slots (r : Reading) : List Slot :=
  slotsFrom 0 (r.entries.map (·.line))

/-- The counts of test cases kept, test cases not kept and lines not recognized. -/
def summary (r : Reading) : Event :=
  .summary r.testcases.length r.filtered r.unrecognized.length

end Reading

/-- The outcome of a conversion. -/
structure Conversion where
  /-- The format that literals are spelled for. -/
  format : FloatFormat
  /-- The test cases that are kept, in order. -/
  testcases : List Testcase
  /-- The numbers of the lines that were not recognized. -/
  unrecognized : List Nat
  /-- The number of test cases that are not kept. -/
  filtered : Nat
  /-- The generated listing. -/
  output : Text
  deriving DecidableEq, Repr

namespace Conversion

/-- The format that a file is converted for. -/
def formatFor (o : Options) (source : Text) : FloatFormat :=
  o.format.getD (Inference.infer (Text.lines source))

/-- The lines of a file as a conversion reads them. -/
def reading (o : Options) (source : Text) : Reading :=
  .ofLines (formatFor o source) o.modes 1 (Text.lines source)

/-- The outcome for a file whose lines have all been read. -/
def ofReading (o : Options) (source : Text) (r : Reading) : Conversion where
  format := formatFor o source
  testcases := r.testcases
  unrecognized := r.unrecognized
  filtered := r.filtered
  output :=
    Listing.write ⟨o.generator, formatFor o source⟩ (Text.lines source) r.slots
      (Table.rows r.testcases)

/-- Converts a file; the first line with a fault is reported. -/
def convert (o : Options) (source : Text) : Except LineFault Conversion :=
  let r := reading o source
  match r.fault with
  | some e => .error e
  | none => .ok (ofReading o source r)

/-- What a conversion tells about itself, in order; a fault leaves it without a summary. -/
def events (o : Options) (source : Text) : List Event :=
  let r := reading o source
  (if o.format.isNone then [.inferred (formatFor o source)] else []) ++ r.events
    ++ if r.fault.isNone then [r.summary] else []

end Conversion
end FloatCases
