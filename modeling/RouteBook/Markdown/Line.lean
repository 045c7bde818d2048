/-! The lines of a Markdown text, and a cursor for reading the start of one. Lines end at a line feed, a
carriage return or both together. Indentation is counted in columns: a tab reaches to the next multiple
of four, and the part of a tab that a step did not need is left over for the next one. -/

namespace RouteBook.Markdown

/-- A line without its end; `ended` unless the text stops here. -/
structure Line where
  text : List Char
  ended : Bool

/-- The line's characters with a line feed for its end. -/
def Line.raw (line : Line) : List Char := if line.ended then line.text ++ ['\n'] else line.text

/-- The first line is given in reverse. -/
def linesFrom (current : List Char) : List Char → List Line
  | [] => if current.isEmpty then [] else [⟨current.reverse, false⟩]
  | '\r' :: '\n' :: rest => ⟨current.reverse, true⟩ :: linesFrom [] rest
  | '\r' :: rest => ⟨current.reverse, true⟩ :: linesFrom [] rest
  | '\n' :: rest => ⟨current.reverse, true⟩ :: linesFrom [] rest
  | c :: rest => linesFrom (c :: current) rest

def lines (text : List Char) : List Line := linesFrom [] text

def isSpace (c : Char) : Bool := c = ' ' || c = '\t' || c = '\x0b' || c = '\x0c'

def isBlankLine (text : List Char) : Bool := text.all isSpace

/-- A place in a line: what follows it, the column since the last tab stop, and the columns of a tab that
are still to be taken. -/
structure Cursor where
  rest : List Char
  column : Nat
  pending : Nat

namespace Cursor

def ofText (text : List Char) : Cursor := ⟨text, 0, 0⟩

def atEnd (cursor : Cursor) : Bool := cursor.rest.isEmpty

def spacesFrom : List Char → Nat → Nat → Nat × Cursor
  | rest, column, 0 => (0, ⟨rest, column, 0⟩)
  | ' ' :: rest, column, n + 1 =>
    let (taken, cursor) := spacesFrom rest (column + 1) n
    (taken + 1, cursor)
  | '\t' :: rest, column, n + 1 =>
    let width := 4 - column % 4
    if n + 1 < width then (n + 1, ⟨rest, 0, width - (n + 1)⟩)
    else
      let (taken, cursor) := spacesFrom rest 0 (n + 1 - width)
      (taken + width, cursor)
  | rest, column, _ => (0, ⟨rest, column, 0⟩)

/-- Takes up to `n` columns of indentation; gives how many there were. -/
def spaces (cursor : Cursor) (n : Nat) : Nat × Cursor :=
  if n ≤ cursor.pending then (n, { cursor with pending := cursor.pending - n })
  else
    let (taken, next) := spacesFrom cursor.rest cursor.column (n - cursor.pending)
    (cursor.pending + taken, next)

/-- Takes all indentation. -/
def allSpaces (cursor : Cursor) : Cursor :=
  ⟨cursor.rest.dropWhile fun c => c = ' ' || c = '\t', 0, 0⟩

/-- Takes `n` characters that are no indentation. -/
def advance (cursor : Cursor) (n : Nat) : Cursor :=
  { cursor with rest := cursor.rest.drop n, column := cursor.column + n }

/-- What is left of the line, the rest of a half-taken tab as spaces. -/
def remaining (cursor : Cursor) : List Char := List.replicate cursor.pending ' ' ++ cursor.rest

end Cursor

end RouteBook.Markdown
