import FloatCases.Text.Basic

/-!
Pieces of text with a colour, as a terminal shows them.
-/
namespace FloatCases

/-- What a piece of a report is drawn for, which decides its colour. -/
inductive Ink where
  /-- Text without a colour. -/
  | bare
  /-- What is to blame. -/
  | blame
  /-- The frame around the source. -/
  | margin
  /-- The frame beside lines that are not source. -/
  | skip
  /-- Source that is not to blame. -/
  | plain
  /-- The title of a note. -/
  | note
  deriving DecidableEq, Repr

/-- The code of a colour on the terminal. -/
def Ink.code? : Ink → Option Text
  | .bare => none
  | .blame => some "31".toList
  | .margin => some "38;5;246".toList
  | .skip => some "38;5;240".toList
  | .plain => some "38;5;249".toList
  | .note => some "38;5;115".toList

/-- A piece of text with a colour. -/
structure Piece where
  ink : Ink
  text : Text
  deriving DecidableEq, Repr

namespace Piece

/-- A text without a colour. -/
def bare (s : Text) : Piece :=
  ⟨.bare, s⟩

/-- The character that starts a command to the terminal. -/
def escape : Char :=
  '\x1b'

/-- A command to the terminal that sets a colour. -/
def command (code : Text) : Text :=
  escape :: '[' :: code ++ ['m']

/-- A piece with commands around it that set its colour and take it back. -/
def coloured (p : Piece) : Text :=
  match p.ink.code? with
  | none => p.text
  | some code => command code ++ p.text ++ command ['0']

/-- A piece with or without its colour. -/
def render (colour : Bool) (p : Piece) : Text :=
  if colour then p.coloured else p.text

end Piece
end FloatCases
