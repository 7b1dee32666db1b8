import FloatCases.Command.Path

/-!
A directory of files held in memory.
-/
namespace FloatCases

/-- The names of files and their bytes. -/
abbrev Directory := List (Text × ByteArray)

namespace Directory

/-- The bytes of the file at a path from the directory. -/
def file? (d : Directory) (path : Text) : Option ByteArray :=
  if Path.isAbsolute path || Path.namesDirectory path then none
  else (d.find? fun x => Path.parts x.1 = Path.parts path).map (·.2)

/-- The text of the file at a path from the directory, if it is text. -/
def read (d : Directory) (path : Text) : Option Text :=
  (d.file? path).bind fun bytes => (String.fromUTF8? bytes).map String.toList

end Directory
end FloatCases
