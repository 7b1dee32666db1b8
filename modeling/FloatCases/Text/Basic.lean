/-!
Texts, their size in bytes, their lines and their words.
-/
namespace FloatCases

/-- A text is the list of its characters. -/
abbrev Text := List Char

namespace Text

/-- The number of bytes that a text takes in UTF-8. -/
def byteSize : Text → Nat
  | [] => 0
  | c :: s => c.utf8Size + byteSize s

/-- The characters of a text from byte `n` on. -/
def dropBytes : Text → Nat → Text
  | [], _ => []
  | c :: s, n => if n = 0 then c :: s else dropBytes s (n - c.utf8Size)

/-- The characters of a text that start before byte `n`. -/
def takeBytes : Text → Nat → Text
  | [], _ => []
  | c :: s, n => if n = 0 then [] else c :: takeBytes s (n - c.utf8Size)

/-- The characters of a text in the byte range from `start` up to `stop`. -/
def slice (s : Text) (start stop : Nat) : Text :=
  takeBytes (dropBytes s start) (stop - start)

/-- A natural number in decimal digits. -/
def ofNat (n : Nat) : Text :=
  Nat.toDigits 10 n

/-- A text between single quotes. -/
def quoted (s : Text) : Text :=
  "'".toList ++ s ++ "'".toList

/-- A line without the carriage return at its end, if it has one. -/
def dropReturn (s : Text) : Text :=
  if s.getLast? = some '\r' then s.dropLast else s

/--
The lines of a text. A line feed ends a line, together with a carriage return just before it;
what follows the last line feed is a line unless it is empty.
-/
def lines (s : Text) : List Text :=
  let pieces := List.splitOn '\n' s
  let last := pieces.getLast?.getD []
  pieces.dropLast.map dropReturn ++ if last = [] then [] else [last]

/-- The text whose lines are given ones, each ended by a line feed. -/
def unlines (ls : List Text) : Text :=
  ls.flatMap fun l => l ++ ['\n']

/-- The words of a text: its longest pieces without a space, in order. -/
def words (s : Text) : List Text :=
  (List.splitOn ' ' s).filter (· ≠ [])

/-- A text with every run of spaces squeezed to one, and none at its ends. -/
def squeeze (s : Text) : Text :=
  List.intercalate [' '] (words s)

@[simp]
theorem byteSize_append (s t : Text) : byteSize (s ++ t) = byteSize s + byteSize t := by
  induction s with
  | nil => simp [byteSize]
  | cons c s ih => simp [byteSize, ih, Nat.add_assoc]

theorem takeBytes_byteSize (s t : Text) : takeBytes (s ++ t) (byteSize s) = s := by
  induction s with
  | nil => cases t <;> simp [byteSize, takeBytes]
  | cons c s ih =>
    have hc := c.utf8Size_pos
    rw [List.cons_append, byteSize, takeBytes, if_neg (by omega), Nat.add_sub_cancel_left, ih]

theorem dropBytes_byteSize (s t : Text) : dropBytes (s ++ t) (byteSize s) = t := by
  induction s with
  | nil => cases t <;> simp [byteSize, dropBytes]
  | cons c s ih =>
    have hc := c.utf8Size_pos
    rw [List.cons_append, byteSize, dropBytes, if_neg (by omega), Nat.add_sub_cancel_left, ih]

/-- The range that a part of a text takes up gives back the part. -/
theorem slice_append (s t u : Text) :
    slice (s ++ t ++ u) (byteSize s) (byteSize s + byteSize t) = t := by
  simp [slice, dropBytes_byteSize, takeBytes_byteSize]

end Text
end FloatCases
