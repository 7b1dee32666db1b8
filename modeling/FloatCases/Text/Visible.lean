import FloatCases.Text.Basic

/-!
What is left of a text on an output that is not a terminal: commands to a terminal and control
characters other than white space are left out. A command starts with an escape character; the
control characters after the ASCII range count as plain text. White space inside a command is kept,
and so is what follows it up to the next control character, where the command goes on.
-/
namespace FloatCases.Text

/-- What a place in a text is inside of. -/
inductive Enclosure where
  /-- No command. -/
  | none
  /-- A command of which only the escape character is known. -/
  | escape
  /-- An escape sequence with intermediate characters. -/
  | escapeIntermediate
  /-- A control sequence, such as one that sets a colour. -/
  | controlSequence
  /-- A device control string before its parameters. -/
  | deviceStart
  /-- The parameters of a device control string. -/
  | deviceParameter
  /-- The intermediate characters of a device control string. -/
  | deviceIntermediate
  /-- A string that runs up to a string terminator. -/
  | string
  /-- An operating system command, which a bell ends. -/
  | systemCommand
  deriving DecidableEq, Repr

/-- Whether a character is white space that has an effect on a terminal: a tab or a new line. -/
def isLayout (c : Char) : Bool :=
  c ∈ ['\t', '\n', '\x0c', '\r']

/-- Whether a character outside of commands is kept. -/
def isPrinted (c : Char) : Bool :=
  ' ' ≤ c && c ≠ '\x7f' || isLayout c

/-- Whether a character has the number of the string terminator among its bytes. -/
def holdsTerminator (c : Char) : Bool :=
  (String.utf8EncodeChar c).contains 0x9c

namespace Enclosure

/-- Whether a character at such a place is kept. -/
def keeps (c : Char) : Enclosure → Bool
  | .none => isPrinted c
  | .escape | .escapeIntermediate | .controlSequence => isLayout c
  | _ => false

/-- What the place after an escape character and one more character is inside of. -/
def ofIntroducer (c : Char) : Enclosure :=
  if c = '[' then .controlSequence
  else if c = ']' then .systemCommand
  else if c = 'P' then .deviceStart
  else if c ∈ ['X', '^', '_'] then .string
  else if ' ' ≤ c && c ≤ '/' then .escapeIntermediate
  else if '0' ≤ c && c ≤ '~' then .none
  else .escape

/-- What the place after a character is inside of if the character ends nothing by itself. -/
def afterPart (c : Char) : Enclosure → Enclosure
  | .none => .none
  | .escape => ofIntroducer c
  | .escapeIntermediate => if '0' ≤ c && c ≤ '~' then .none else .escapeIntermediate
  | .controlSequence => if '@' ≤ c && c ≤ '~' then .none else .controlSequence
  | .deviceStart =>
    if ' ' ≤ c && c ≤ '/' then .deviceIntermediate
    else if '0' ≤ c && c ≤ '?' then .deviceParameter
    else if '@' ≤ c && c ≤ '~' then .string
    else .deviceStart
  | .deviceParameter =>
    if ' ' ≤ c && c ≤ '/' then .deviceIntermediate
    else if '<' ≤ c && c ≤ '~' then .string
    else .deviceParameter
  | .deviceIntermediate => if '0' ≤ c && c ≤ '~' then .string else .deviceIntermediate
  | .string => if holdsTerminator c then .none else .string
  | .systemCommand => if c = '\x07' then .none else .systemCommand

/--
What the place after a character is inside of. The characters "cancel" and "substitute" end every
command, and an escape character starts another.
-/
def after (e : Enclosure) (c : Char) : Enclosure :=
  if c = '\x18' ∨ c = '\x1a' then .none
  else if c = '\x1b' then .escape
  else e.afterPart c

end Enclosure

/--
The characters that are kept of a text that starts inside of `e`. While what was read last was
kept, all that would be outside of commands is kept; a character after the ASCII range then ends
the command.
-/
def visibleFrom : Enclosure → Bool → Text → Text
  | _, _, [] => []
  | e, keeping, c :: rest =>
    if (if keeping then Enclosure.none else e).keeps c then
      c :: visibleFrom (if c.toNat < 0x80 then e else .none) true rest
    else visibleFrom (e.after c) false rest

/-- The characters of a text that are kept on an output that is not a terminal. -/
def visible (s : Text) : Text :=
  visibleFrom .none false s

end FloatCases.Text
