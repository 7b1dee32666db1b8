import FloatCases.Text.Basic

/-!
Paths of files as texts.
-/
namespace FloatCases.Path

/-- The parts of a path between slashes; empty parts and single dots lead nowhere. -/
def parts (path : Text) : List Text :=
  (List.splitOn '/' path).filter fun part => part ≠ [] && part ≠ ['.']

/-- The last part of a path, if it is a name. -/
def fileName? (path : Text) : Option Text :=
  (parts path).getLast?.filter (· ≠ ['.', '.'])

/-- Whether a path starts from the root. -/
def isAbsolute (path : Text) : Bool :=
  path.head? = some '/'

/-- Whether a path can only be that of a directory, as it ends with a slash or a single dot. -/
def namesDirectory (path : Text) : Bool :=
  (List.splitOn '/' path).getLast?.all fun part => part = [] || part = ['.']

end FloatCases.Path
