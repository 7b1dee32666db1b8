import FloatCases.Text.Basic

/-!
Rounding modes and sets of them.
-/
namespace FloatCases

/-- A rounding mode of the floating-point environment. -/
inductive RoundingMode where
  | nearest
  | down
  | up
  | towardZero
  deriving DecidableEq, Repr

namespace RoundingMode

/-- All rounding modes, in the order of their values. -/
def all : List RoundingMode :=
  [nearest, down, up, towardZero]

/-- The name of a rounding mode in test files and tables. -/
def name : RoundingMode → Text
  | nearest => "RN".toList
  | down => "RD".toList
  | up => "RU".toList
  | towardZero => "RZ".toList

/-- The number that stands for a rounding mode. -/
def value : RoundingMode → Nat
  | nearest => 0
  | down => 1
  | up => 2
  | towardZero => 3

/-- The rounding mode of a given name. -/
def ofName? (s : Text) : Option RoundingMode :=
  all.find? (·.name = s)

theorem mem_all (m : RoundingMode) : m ∈ all := by
  cases m <;> decide

@[simp]
theorem ofName?_name (m : RoundingMode) : ofName? m.name = some m := by
  cases m <;> rfl

end RoundingMode

/-- A set of rounding modes. -/
structure ModeSet where
  nearest : Bool
  down : Bool
  up : Bool
  towardZero : Bool
  deriving DecidableEq, Repr

namespace ModeSet

/-- Whether a rounding mode belongs to a set. -/
def contains (s : ModeSet) : RoundingMode → Bool
  | .nearest => s.nearest
  | .down => s.down
  | .up => s.up
  | .towardZero => s.towardZero

/-- The set of the rounding modes with a given property. -/
def ofPred (p : RoundingMode → Bool) : ModeSet :=
  ⟨p .nearest, p .down, p .up, p .towardZero⟩

/-- The set without members. -/
def empty : ModeSet :=
  ofPred fun _ => false

/-- The set of all rounding modes. -/
def all : ModeSet :=
  ofPred fun _ => true

/-- The set with one member. -/
def only (m : RoundingMode) : ModeSet :=
  ofPred (· = m)

/-- The set that test cases are kept for unless another is asked for. -/
def default : ModeSet :=
  only .nearest

/-- The union of two sets. -/
def union (s t : ModeSet) : ModeSet :=
  ofPred fun m => s.contains m || t.contains m

/-- The set of the members of a list. -/
def ofList (ms : List RoundingMode) : ModeSet :=
  ofPred (· ∈ ms)

/-- The members of a set, in the order of their values. -/
def members (s : ModeSet) : List RoundingMode :=
  RoundingMode.all.filter s.contains

@[simp]
theorem contains_ofPred (p : RoundingMode → Bool) (m : RoundingMode) :
    (ofPred p).contains m = p m := by
  cases m <;> rfl

theorem contains_union (s t : ModeSet) (m : RoundingMode) :
    (s.union t).contains m = (s.contains m || t.contains m) := by
  simp [union]

theorem mem_members {s : ModeSet} {m : RoundingMode} : m ∈ s.members ↔ s.contains m = true := by
  simp [members, RoundingMode.mem_all]

end ModeSet
end FloatCases
