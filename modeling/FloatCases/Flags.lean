import FloatCases.Text.Blank

/-!
The exception flags of the floating-point environment, sets of them, and their written form: names
joined by bars, `NONE` for the empty set.
-/
namespace FloatCases

/-- An exception flag of the floating-point environment. -/
inductive Flag where
  | invalid
  | inexact
  | divByZero
  | overflow
  | underflow
  deriving DecidableEq, Repr

namespace Flag

/-- All flags, in the order of their bits. -/
def all : List Flag :=
  [invalid, inexact, divByZero, overflow, underflow]

/-- The name of a flag in test files and tables. -/
def name : Flag → Text
  | invalid => "INVALID".toList
  | inexact => "INEXACT".toList
  | divByZero => "DIVBYZERO".toList
  | overflow => "OVERFLOW".toList
  | underflow => "UNDERFLOW".toList

/-- The bit that stands for a flag. -/
def bit : Flag → Nat
  | invalid => 1
  | inexact => 2
  | divByZero => 4
  | overflow => 8
  | underflow => 16

/-- The flag of a given name. -/
def ofName? (s : Text) : Option Flag :=
  all.find? (·.name = s)

theorem mem_all (x : Flag) : x ∈ all := by
  cases x <;> decide

@[simp]
theorem ofName?_name (x : Flag) : ofName? x.name = some x := by
  cases x <;> rfl

end Flag

/-- A set of exception flags. -/
structure FlagSet where
  invalid : Bool
  inexact : Bool
  divByZero : Bool
  overflow : Bool
  underflow : Bool
  deriving DecidableEq, Repr

/-- A name in a flag list that no flag has. -/
structure UnknownFlag where
  name : Text
  deriving DecidableEq, Repr

namespace FlagSet

/-- Whether a flag belongs to a set. -/
def contains (s : FlagSet) : Flag → Bool
  | .invalid => s.invalid
  | .inexact => s.inexact
  | .divByZero => s.divByZero
  | .overflow => s.overflow
  | .underflow => s.underflow

/-- The set of the flags with a given property. -/
def ofPred (p : Flag → Bool) : FlagSet :=
  ⟨p .invalid, p .inexact, p .divByZero, p .overflow, p .underflow⟩

/-- The set without members. -/
def empty : FlagSet :=
  ofPred fun _ => false

/-- The set with one member. -/
def only (x : Flag) : FlagSet :=
  ofPred (· = x)

/-- The union of two sets. -/
def union (s t : FlagSet) : FlagSet :=
  ofPred fun x => s.contains x || t.contains x

/-- Whether every member of `t` belongs to `s`. -/
def includes (s t : FlagSet) : Bool :=
  Flag.all.all fun x => !t.contains x || s.contains x

/-- The members of a set, in the order of their bits. -/
def members (s : FlagSet) : List Flag :=
  Flag.all.filter s.contains

/-- The number whose binary digits are the members of a set. -/
def bits (s : FlagSet) : Nat :=
  (s.members.map Flag.bit).foldr (· + ·) 0

/-- The name of the empty set. -/
def emptyName : Text :=
  "NONE".toList

/-- The written form of a set. -/
def display (s : FlagSet) : Text :=
  if s.members = [] then emptyName else List.intercalate ['|'] (s.members.map Flag.name)

/-- The set that a name stands for: one flag, or none. -/
def ofName? (s : Text) : Option FlagSet :=
  if s = emptyName then some empty else (Flag.ofName? s).map only

/-- The union of the sets that names stand for; the first name that stands for none is reported. -/
def ofNames : List Text → Except UnknownFlag FlagSet
  | [] => .ok empty
  | s :: rest =>
    match ofName? s with
    | none => .error ⟨s⟩
    | some x => (ofNames rest).map (union x)

/-- Reads a flag list. A zero alone is the empty set; white space around names is ignored. -/
def parse (s : Text) : Except UnknownFlag FlagSet :=
  if Text.trim s = ['0'] then .ok empty else ofNames ((List.splitOn '|' s).map Text.trim)

@[simp]
theorem contains_ofPred (p : Flag → Bool) (x : Flag) : (ofPred p).contains x = p x := by
  cases x <;> rfl

theorem contains_union (s t : FlagSet) (x : Flag) :
    (s.union t).contains x = (s.contains x || t.contains x) := by
  simp [union]

theorem mem_members {s : FlagSet} {x : Flag} : x ∈ s.members ↔ s.contains x = true := by
  simp [members, Flag.mem_all]

end FlagSet
end FloatCases
