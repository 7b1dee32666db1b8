import FloatCases.Text.Basic

/-!
The binary float formats that test files are written for.
-/
namespace FloatCases

/-- A binary float format, named by its size in bits. -/
inductive FloatFormat where
  | f16
  | f32
  | f64
  | longDouble
  | f128
  deriving DecidableEq, Repr

namespace FloatFormat

/-- All formats, from the narrowest to the widest. -/
def all : List FloatFormat :=
  [f16, f32, f64, longDouble, f128]

/-- The size of a value in bits. -/
def bits : FloatFormat → Nat
  | f16 => 16
  | f32 => 32
  | f64 => 64
  | longDouble => 80
  | f128 => 128

/-- The size of the exponent field in bits. -/
def exponentBits : FloatFormat → Nat
  | f16 => 5
  | f32 => 8
  | f64 => 11
  | longDouble => 16
  | f128 => 15

/-- The size of the stored fraction in bits. -/
def mantissaBits : FloatFormat → Nat
  | f16 => 10
  | f32 => 23
  | f64 => 52
  | longDouble => 63
  | f128 => 112

/-- The number of hex digits that hold the stored fraction. -/
def hexDigits (f : FloatFormat) : Nat :=
  (f.mantissaBits + 3) / 4

/-- The name of the format, which is also its type in the generated table. -/
def name : FloatFormat → Text
  | f16 => "f16".toList
  | f32 => "f32".toList
  | f64 => "f64".toList
  | longDouble => "c_longdouble".toList
  | f128 => "f128".toList

/-- The format of a given name. -/
def ofName? (s : Text) : Option FloatFormat :=
  all.find? (·.name = s)

/-- The format of a given size in bits. -/
def ofBits? (n : Nat) : Option FloatFormat :=
  all.find? (·.bits = n)

/-- What is said of a name that no format has. -/
def unknownMessage (s : Text) : Text :=
  "unknown float type ".toList ++ Text.quoted s
    ++ " (expected one of f16, f32, f64, f128, c_longdouble)".toList

/-- The wider of two formats. -/
def wider (f g : FloatFormat) : FloatFormat :=
  if f.bits < g.bits then g else f

@[simp]
theorem ofName?_name (f : FloatFormat) : ofName? f.name = some f := by
  cases f <;> rfl

@[simp]
theorem ofBits?_bits (f : FloatFormat) : ofBits? f.bits = some f := by
  cases f <;> rfl

end FloatFormat
end FloatCases
