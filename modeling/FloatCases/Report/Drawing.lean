import FloatCases.Report.Ink
import FloatCases.Report.Window

/-!
The report of a fault: what is wrong and where, the source with the part to blame marked, and help.
A part that lies in one row is underlined; one that runs over several rows has an arrow to its first
and to its last row.
-/
namespace FloatCases.Report

/-- A line of a report. -/
abbrev Row := List Piece

/-- A piece of the frame for each character of a text. -/
def frame (s : Text) : Row :=
  s.map fun c => ⟨.margin, [c]⟩

/-- A piece of a mark for each character of a text. -/
def strokes (s : Text) : Row :=
  s.map fun c => ⟨.blame, [c]⟩

/-- A number of spaces without a colour. -/
def gap (n : Nat) : Piece :=
  .bare (List.replicate n ' ')

/-- The number of digits of the largest line number beside the source. -/
def gutter (w : Window) : Nat :=
  (Text.ofNat (w.last.index + 1)).length

/-- The code of a fault and its reason in words. -/
def titleRow (c : Cause) : Row :=
  [⟨.blame, ['['] ++ c.code ++ "] Error:".toList⟩, .bare (' ' :: c.message)]

/-- The place of a fault: the name of the file, the line, and the first column to blame. -/
def placeRow (w : Window) (name : Text) (line : Nat) : Row :=
  gap (gutter w + 2) :: frame "╭─[".toList
    ++ .bare (' ' :: name ++ ':' :: Text.ofNat (line + w.first.index)
      ++ ':' :: Text.ofNat (w.startColumn + 1) ++ [' ']) :: frame "]".toList

/-- The frame between the place and the source. -/
def spacerRow (w : Window) : Row :=
  gap (gutter w + 2) :: frame "│".toList

/-- What stands before a row of the source: its number. -/
def numberPieces (w : Window) (r : SourceRow) : Row :=
  [.bare [' '], ⟨.margin, (Text.ofNat (r.index + 1)).leftpad (gutter w) ' ' ++ " │".toList⟩,
    .bare [' ']]

/-- A character of the source; white space is drawn as spaces. -/
def sourcePieces (w : Window) (r : SourceRow) (c : Char) (col : Nat) : Row :=
  let ink := if w.covers r col then Ink.blame else .plain
  if Text.isBlank c then List.replicate (Text.width c col) ⟨ink, [' ']⟩ else [⟨ink, [c]⟩]

/-- A row of the source, after its number and what leads to it. -/
def sourceRow (w : Window) (r : SourceRow) (lead : Row) : Row :=
  numberPieces w r ++ lead ++ r.shown.zipIdx.flatMap fun x => sourcePieces w r x.1 x.2

/-- What stands before everything that is not source, with a given character as the frame. -/
def sideWith (w : Window) (bar : Char) : Row :=
  [.bare [' '], ⟨.skip, List.replicate (gutter w + 1) ' ' ++ [bar]⟩, .bare [' ']]

/-- What stands before everything below the source. -/
def side (w : Window) : Row :=
  sideWith w '│'

/-- A column of a given width: a character once and another for the rest of the width. -/
def cell (ink : Ink) (first tail : Char) : Nat → Row
  | 0 => []
  | n + 1 => ⟨ink, [first]⟩ :: List.replicate n ⟨ink, [tail]⟩

/-- The message of a fault. -/
def messagePiece (c : Cause) : Piece :=
  .bare (' ' :: c.message)

/-! A part to blame in one row. -/

/-- The columns that are drawn below the part to blame. -/
def drawnColumns (w : Window) : List Nat :=
  List.range (w.stopColumn + 2)

/-- The mark of a column directly below the source. -/
def underline (w : Window) (col : Nat) : Row :=
  let n := w.first.widthAt col
  if col = w.middle then
    if w.covers w.first col then cell .blame '┬' '─' n else cell .blame '│' ' ' n
  else if w.covers w.first col then cell .blame '─' '─' n
  else cell .bare ' ' ' ' n

/-- The mark of a column in the line of the message. -/
def arrow (w : Window) (col : Nat) : Row :=
  let n := w.first.widthAt col
  if col = w.middle then cell .blame '╰' '─' n
  else if w.middle < col then cell .blame '─' '─' n
  else cell .bare ' ' ' ' n

/-- The marks under the part to blame. -/
def underlineRow (w : Window) : Row :=
  side w ++ (drawnColumns w).flatMap (underline w)

/-- The message, hanging from the part to blame. -/
def messageRow (w : Window) (c : Cause) : Row :=
  side w ++ (drawnColumns w).flatMap (arrow w) ++ [messagePiece c]

/-- The source and the message for a part to blame in one row. -/
def plainRows (w : Window) (c : Cause) : List Row :=
  [sourceRow w w.first [], underlineRow w, messageRow w c]

/-! A part to blame that runs over several rows. -/

/-- The upright of the arrows, beside rows that they do not lead to. -/
def upright (bar : Char) : Row :=
  [⟨.blame, [bar]⟩, gap 3]

/-- The mark of the rows between the first and the last, if there are any. -/
def omittedRows (w : Window) : List Row :=
  if w.first.index + 1 < w.last.index then [sideWith w '┆' ++ upright '┆'] else []

/-- The columns of the last row, as far as they are drawn below it. -/
def lastColumns (w : Window) : List Nat :=
  List.range (w.last.text.length + 2)

/-- The frame between the last row and the message. -/
def hangingRow (w : Window) : Row :=
  side w ++ upright '│'
    ++ (lastColumns w).flatMap fun col => cell .bare ' ' ' ' (w.last.widthAt col)

/-- The message, at the end of the arrows. -/
def splitMessageRow (w : Window) (c : Cause) : Row :=
  side w ++ strokes "╰───".toList
    ++ (lastColumns w).flatMap (fun col => cell .blame '─' '─' (w.last.widthAt col))
    ++ [messagePiece c]

/-- The source and the message for a part to blame that runs over several rows. -/
def splitRows (w : Window) (c : Cause) : List Row :=
  sourceRow w w.first (strokes "╭─▶ ".toList) :: omittedRows w
    ++ [sourceRow w w.last (strokes "├─▶ ".toList), hangingRow w, splitMessageRow w c]

/--
What stands before the help. Below arrows it is set in as they are, and their upright is drawn on if
the part to blame starts just where the first row of the text ends.
-/
def helpSide (w : Window) : Row :=
  side w ++
    if !w.isSplit then []
    else if w.first.index = 1 ∧ w.startColumn = 0 then upright '│'
    else [gap 4]

/-- What would have been right. -/
def helpRow (w : Window) (c : Cause) : Row :=
  helpSide w ++ [⟨.note, "Help".toList⟩, .bare (": ".toList ++ c.help)]

/-- The frame below the report. -/
def closingRow (w : Window) : Row :=
  [⟨.margin, List.replicate (gutter w + 2) '─' ++ ['╯']⟩]

/-- The lines of the report of a fault in a file of a given name. -/
def rows (e : LineFault) (name : Text) : List Row :=
  let w := Window.ofFault e.fault
  let c := e.fault.cause
  [titleRow c, placeRow w name e.line, spacerRow w]
    ++ (if w.isSplit then splitRows w c else plainRows w c)
    ++ [helpSide w, helpRow w c, closingRow w]

/-- The report of a fault in a file of a given name, with or without colours. -/
def render (colour : Bool) (e : LineFault) (name : Text) : Text :=
  (rows e name).flatMap fun row => row.flatMap (Piece.render colour) ++ ['\n']

end FloatCases.Report
