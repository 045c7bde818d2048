import RouteBook.Markdown.Tag

/-! What the start of a line can begin, once indentation and containers are taken off: a thematic break, a
heading, a code fence, a list item, the row under a table's head. -/

namespace RouteBook.Markdown

/-- Three or more of one of `*`, `-`, `_`, with nothing but blanks between and after them. -/
def isThematicBreak (text : List Char) : Bool :=
  match text with
  | c :: _ =>
    (c = '*' || c = '-' || c = '_') && text.all (fun d => d = c || d = ' ' || d = '\t') && 3 ≤ text.count c
  | [] => false

/-- The level of a heading that starts with number signs, and its raw content. -/
def atxHeading? (text : List Char) : Option (Nat × List Char) :=
  let level := (text.takeWhile (· = '#')).length
  let rest := text.drop level
  if 1 ≤ level && level ≤ 6 && rest.head?.all (fun c => isSpace c) then some (level, rest) else none

def dropTrailing (p : Char → Bool) (text : List Char) : List Char := (text.reverse.dropWhile p).reverse

/-- The text of such a heading: without the blanks around it and the number signs that close it. -/
def atxContent (raw : List Char) : List Char :=
  let text := dropTrailing (· = ' ') (raw.dropWhile isSpace)
  let shown := dropTrailing (· = '#') text
  if shown.isEmpty then []
  else if shown.getLast?.any (· = ' ') then dropTrailing (· = ' ') shown
  else text

/-- A row of `=` or `-` makes a heading of the paragraph above it. -/
def setextLevel? (text : List Char) : Option Nat :=
  match text with
  | c :: _ =>
    if (c = '=' || c = '-') && isBlankLine (text.dropWhile (· = c)) then some (if c = '=' then 1 else 2) else none
  | [] => none

/-- The fence of a code block: its character, its length, and the text after it. -/
def codeFence? (text : List Char) : Option (Char × Nat × List Char) :=
  match text with
  | c :: _ =>
    if c = '\x60' || c = '~' then
      let length := (text.takeWhile (· = c)).length
      let info := text.drop length
      if 3 ≤ length && !(c = '\x60' && '\x60' ∈ info) then some (c, length, info) else none
    else none
  | [] => none

/-- A line that closes a code block: at least as many of the fence's characters and nothing but spaces
behind them. -/
def closesFence (c : Char) (length : Nat) (text : List Char) : Bool :=
  length ≤ (text.takeWhile (· = c)).length && (text.dropWhile (· = c)).all (· = ' ')

/-- The marker of a list item: its kind, its number, and how many characters it has. -/
def listMarker? (text : List Char) : Option (Char × Nat × Nat) :=
  let followed (behind : List Char) : Bool := behind.head?.all fun c => c = ' ' || c = '\t'
  match text with
  | [] => none
  | c :: rest =>
    if c = '-' || c = '+' || c = '*' then if followed rest then some (c, 0, 1) else none
    else
      let digits := text.takeWhile Char.isDigit
      match text.drop digits.length with
      | d :: behind =>
        if 1 ≤ digits.length && digits.length ≤ 9 && (d = '.' || d = ')') && followed behind then
          some (d, digits.foldl (fun n e => n * 10 + (e.toNat - 48)) 0, digits.length + 1)
        else none
      | [] => none

inductive Alignment
  | none
  | left
  | center
  | right
  deriving DecidableEq

/-- The columns of a delimiter row read so far. -/
structure Columns where
  done : List Alignment
  current : Alignment
  start : Bool
  dash : Bool
  pipe : Bool

def columnStep (columns : Option Columns) (c : Char) : Option Columns :=
  columns.bind fun cols =>
    if c = ' ' then some cols
    else if c = ':' then
      let current :=
        match cols.start, cols.current with
        | true, .none => .left
        | false, .left => .center
        | false, .none => .right
        | _, other => other
      some { cols with current := current, start := false }
    else if c = '-' then some { cols with start := false, dash := true }
    else if c = '|' && cols.dash then
      some { done := cols.done ++ [cols.current], current := .none, start := true, dash := false, pipe := true }
    else none

/-- The row under a table's head: dashes with optional colons, and at least one bar. -/
def delimiterRow? (text : List Char) : Option (List Alignment) :=
  let (indent, cursor) := (Cursor.ofText text).spaces 4
  if 3 < indent || cursor.rest.isEmpty then none
  else
    let (bar, body) :=
      match cursor.rest with
      | '|' :: rest => (true, rest)
      | rest => (false, rest)
    match body.foldl columnStep (some ⟨[], .none, true, false, bar⟩) with
    | some cols =>
      let all := if cols.start then cols.done else cols.done ++ [cols.current]
      if cols.pipe && body.any (· = '-') then some all else none
    | none => none

/-- The parts of a text between the bars that no backslash escapes. -/
def splitBars (text : List Char) : List (List Char) :=
  let rec go (current : List Char) : List Char → List (List Char)
    | [] => [current.reverse]
    | '\\' :: c :: rest =>
      if c = '|' || c = '\\' then go (c :: '\\' :: current) rest else go ('\\' :: current) (c :: rest)
    | '|' :: rest => current.reverse :: go [] rest
    | c :: rest => go (c :: current) rest
  go [] text

/-- The number of columns in the head of a table; a line without a bar is none. -/
def headColumns? (text : List Char) : Option Nat :=
  match splitBars text with
  | [] | [_] => none
  | first :: rest =>
    let count := rest.length + 1
    let count := if isBlankLine first then count - 1 else count
    some (if (rest.getLast?.map isBlankLine).getD false then count - 1 else count)

def trimCell (text : List Char) : List Char := dropTrailing isSpace (text.dropWhile isSpace)

/-- The cells of a table row: a bar at either end belongs to no cell. -/
def rowCells (text : List Char) : List (List Char) :=
  let parts := splitBars (text.dropWhile isSpace)
  let parts :=
    match parts with
    | [] :: rest => rest
    | other => other
  let parts := if (parts.getLast?.map isBlankLine).getD false then parts.dropLast else parts
  parts.map trimCell

end RouteBook.Markdown
