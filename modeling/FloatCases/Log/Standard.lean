import FloatCases.Grammar.Mismatch
import FloatCases.Log

/-!
The log as it is kept if nothing else is given. A setting is a list of directives with commas
between them; each is a threshold, the start of a name, or both with an equals sign between them.
-/
namespace FloatCases

/-- How much is written of the parts of the program whose names start in a given way. -/
structure Directive where
  start : Text
  threshold : Threshold
  deriving DecidableEq, Repr

namespace Directive

/-- Thresholds by number, as far as they have one. -/
def numbered : List (Text × Threshold) :=
  [("0".toList, none), ("1".toList, some .error), ("2".toList, some .warn),
    ("3".toList, some .info), ("4".toList, some .debug), ("5".toList, some .trace)]

/-- The threshold of a given name or number. -/
def threshold? (s : Text) : Option Threshold :=
  Threshold.ofName? s <|> numbered.lookup s

/-- Whether a text can be the start of a name. -/
def isStart (s : Text) : Bool :=
  s ≠ [] && s.all fun c => c.isAlphanum || c ∈ ['_', ':', '-']

/-- The directive that a text stands for. The start of a name alone stands for everything. -/
def ofText? (s : Text) : Option Directive :=
  match List.splitOn '=' s with
  | [s] =>
    match threshold? s with
    | some t => some ⟨[], t⟩
    | none => if isStart s then some ⟨s, some .trace⟩ else none
  | [start, t] => if isStart start then (threshold? t).map (⟨start, ·⟩) else none
  | _ => none

/-- What is written if a setting says nothing. -/
def default : Directive :=
  ⟨[], some .error⟩

/-- The directives of a setting that can be read. -/
def listOf (s : Text) : List Directive :=
  let ds := (List.splitOn ',' s).filterMap ofText?
  if ds = [] then [default] else ds

/-- The directives of a setting, if all of them can be read. -/
def listOf? (s : Text) : Option (List Directive) :=
  if s = [] then some [default] else (List.splitOn ',' s).mapM ofText?

/-- The directive for a name: of those that fit it, the last of those that say most of it. -/
def for? (ds : List Directive) (name : Text) : Option Directive :=
  (ds.filter fun d => d.start.isPrefixOf name).foldl
    (fun best d => if best.any fun b => d.start.length < b.start.length then best else some d) none

/-- The filter that directives stand for. -/
def filter (ds : List Directive) : Filter :=
  fun name l => (for? ds name).any fun d => d.threshold.admits l

end Directive

/-- The log as it is kept if nothing else is given. -/
def Logger.standard : Logger where
  mismatch := Rule.testcase.mismatch
  filter s := Directive.filter (Directive.listOf s)
  filter? s := (Directive.listOf? s).map Directive.filter

end FloatCases
