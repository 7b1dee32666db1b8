import FloatCases.Event
import FloatCases.Text.Escape

/-!
The log of a run: which events are written, and in which words. How a setting is read and how a
mismatch is worded are given from elsewhere.
-/
namespace FloatCases

/-- The least level that is written, or nothing at all. -/
abbrev Threshold := Option Level

/-- Whether events of a part of the program at a level are written. -/
abbrev Filter := Text → Level → Bool

namespace Threshold

/-- All thresholds. -/
def all : List Threshold :=
  none :: Level.all.map some

/-- The name of a threshold. -/
def name : Threshold → Text
  | none => "OFF".toList
  | some l => l.name

/-- The threshold of a given name, in letters of either case. -/
def ofName? (s : Text) : Option Threshold :=
  all.find? (·.name = s.map Char.toUpper)

/-- Whether events at a level are written. -/
def admits (t : Threshold) (l : Level) : Bool :=
  t.any fun least => least.rank ≤ l.rank

/-- The filter for all parts of the program alike. -/
def filter (t : Threshold) : Filter :=
  fun _ l => t.admits l

end Threshold

/-- Whether an event is written. -/
def Filter.admits (f : Filter) (e : Event) : Bool :=
  f e.origin e.level

/-- What the log takes from elsewhere. -/
structure Logger where
  /-- Why a text does not match the grammar of test cases, in words. -/
  mismatch : Text → Text
  /-- The filter that a setting stands for, without what cannot be read in the setting. -/
  filter : Text → Filter
  /-- The filter that a setting stands for, if all of it can be read. -/
  filter? : Text → Option Filter

namespace Logger

/-- What the program relies on in the reading of settings. -/
structure Lawful (lg : Logger) : Prop where
  /-- The name of a threshold is read as that threshold. -/
  filter?_of_name : ∀ s t, Threshold.ofName? s = some t → lg.filter? s = some t.filter
  /-- Nothing is left out of a setting that can be read. -/
  filter_of_filter? : ∀ s f, lg.filter? s = some f → lg.filter s = f

/-- An event as an entry of the log, which may be shown on a terminal. -/
def entry (lg : Logger) (e : Event) : Text :=
  e.level.name ++ ' ' :: Text.escape (e.message lg.mismatch)

/-- The entries of the events that are written, in order. -/
def log (lg : Logger) (f : Filter) (es : List Event) : List Text :=
  (es.filter f.admits).map lg.entry

end Logger
end FloatCases
