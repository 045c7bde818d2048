import RouteBook.Markdown.Leaf
import RouteBook.Markdown.Link

/-! The block structure of a Markdown text. Quotes and list items are containers: a line first passes the
open containers it continues, then may open new ones, and what is left of it starts or continues a leaf.
The text of paragraphs, headings and cells stays raw; it is read as inline text once all link definitions
are known. -/

namespace RouteBook.Markdown

inductive Block
  | paragraph (text : List Char)
  | heading (level : Nat) (text : List Char)
  | rule
  /-- The info string of a fenced block; an indented block has none. -/
  | code (info : Option (List Char)) (body : List Char)
  | html (body : List Char)
  | quote (blocks : List Block)
  /-- The first number of an ordered list; in a tight list paragraphs are not set apart. -/
  | list (start : Option Nat) (tight : Bool) (items : List Block)
  | item (blocks : List Block)
  | table (columns : List Alignment) (head : List (List Char)) (rows : List (List (List Char)))

namespace Block

inductive Container
  | quote
  | list (tight : Bool) (marker : Char) (start : Nat)
  /-- The columns by which the item's further lines are indented. -/
  | item (indent : Nat)

/-- Takes off the containers that a line continues, outermost first: how many, and what follows them. -/
def enter : List Container → Cursor → Nat × Cursor
  | [], cursor => (0, cursor)
  | .quote :: inner, cursor =>
    let (_, next) := cursor.spaces 3
    match next.rest with
    | '>' :: _ =>
      let (count, last) := enter inner ((next.advance 1).spaces 1).2
      (count + 1, last)
    | _ => (0, cursor)
  | .list .. :: inner, cursor =>
    let (count, last) := enter inner cursor
    (count + 1, last)
  | .item indent :: inner, cursor =>
    let (taken, next) := cursor.spaces indent
    if taken = indent || next.atEnd then
      let (count, last) := enter inner next
      (count + 1, last)
    else (0, cursor)

/-- What is left of a line that continues all the containers. -/
def continued? (containers : List Container) (line : Line) : Option Cursor :=
  let (count, cursor) := enter containers (.ofText line.text)
  if count = containers.length then some cursor else none

/-- An item that is empty on its own line and followed by a blank one. -/
def isEmptyItem (behind : List Char) (following : List Line) : Bool :=
  isBlankLine behind && following.head?.all fun line => isBlankLine line.text

/-- Whether a line, after its containers and up to three spaces, ends the paragraph above it, tables apart;
`current` when it continues all containers of the paragraph. -/
def interruptsPlainly (text : List Char) (current : Bool) (following : List Line) : Bool :=
  text.isEmpty || isThematicBreak text || (atxHeading? text).isSome || (codeFence? text).isSome ||
    text.head? = some '>' ||
    (match listMarker? text with
      | some (kind, number, width) =>
        !current || ((kind = '-' || kind = '+' || kind = '*' || number = 1) &&
          !isEmptyItem (text.drop width) following)
      | none => false) ||
    (match text with
      | '<' :: rest => (Tag.interrupting? rest).isSome
      | _ => false)

/-- The columns of a table whose head is `text`, if the next line is its delimiter row; and the lines after
that one. -/
def tableHead? (containers : List Container) (text : List Char) :
    List Line → Option (List Alignment × List Line)
  | [] => none
  | line :: rest => do
    let count ← headColumns? text
    let cursor ← continued? containers line
    let columns ← delimiterRow? cursor.remaining
    if columns.length = count then some (columns, rest) else none

def interrupts (containers : List Container) (text : List Char) (current : Bool) (following : List Line) :
    Bool :=
  interruptsPlainly text current following || (current && (tableHead? containers text following).isSome)

/-- How a paragraph ends, and the lines after it. -/
structure ParagraphEnd where
  lines : List (List Char)
  heading : Option Nat
  rest : List Line

/-- The further lines of a paragraph: a line that interrupts nothing continues it, even without the
containers' markers. -/
def paragraphLines (containers : List Container) : List Line → ParagraphEnd
  | [] => ⟨[], none, []⟩
  | line :: rest =>
    let (count, cursor) := enter containers (.ofText line.text)
    let current := count = containers.length
    let (indent, next) := cursor.spaces 4
    let text := next.rest
    let setext := if indent < 4 && current then setextLevel? text else none
    match setext with
    | some level => ⟨[], some level, rest⟩
    | none =>
      if (indent < 4 && interrupts containers text current rest) || next.allSpaces.atEnd then ⟨[], none, line :: rest⟩
      else
        let more := paragraphLines containers rest
        { more with lines := cursor.remaining :: more.lines }

def joinLines (parts : List (List Char)) : List Char := (parts.intersperse ['\n']).flatten

/-- Rows of a table as long as lines continue the containers and interrupt nothing. -/
def tableRows (containers : List Container) (width : Nat) :
    List Line → List (List (List Char)) × List Line
  | [] => ([], [])
  | line :: rest =>
    match continued? containers line with
    | none => ([], line :: rest)
    | some cursor =>
      let text := cursor.allSpaces.rest
      if isBlankLine text || interruptsPlainly text true rest then ([], line :: rest)
      else
        let cells := (rowCells text).take width
        let row := cells ++ List.replicate (width - cells.length) []
        let (rows, left) := tableRows containers width rest
        (row :: rows, left)

/-- A raw line of code or HTML, with a line feed if the text goes on. -/
def rawLine (cursor : Cursor) (line : Line) : List Char :=
  cursor.remaining ++ (if line.ended then ['\n'] else [])

/-- The body of a fenced block up to its closing fence; `indent` columns are taken off each line. -/
def fencedLines (containers : List Container) (indent : Nat) (fence : Char) (length : Nat) :
    List Line → List Char × List Line
  | [] => ([], [])
  | line :: rest =>
    match continued? containers line with
    | none => ([], line :: rest)
    | some cursor =>
      let (_, body) := cursor.spaces indent
      let (extra, next) := body.spaces 4
      if extra < 4 && closesFence fence length next.rest then ([], rest)
      else
        let (more, left) := fencedLines containers indent fence length rest
        (rawLine body line ++ more, left)

/-- The lines of an indented block after its first: each with whether it is blank, and what follows them. -/
def indentedLines (containers : List Container) : List Line → List (List Char × Bool) × List Line
  | [] => ([], [])
  | line :: rest =>
    match continued? containers line with
    | none => ([], line :: rest)
    | some cursor =>
      let (indent, body) := cursor.spaces 4
      if indent = 4 || body.atEnd then
        let (more, left) := indentedLines containers rest
        ((rawLine body line, isBlankLine body.rest) :: more, left)
      else ([], line :: rest)

/-- The lines of an HTML block after its first. -/
def htmlLines (containers : List Container) (ending : Tag.BlockEnd) : List Line → List Char × List Line
  | [] => ([], [])
  | line :: rest =>
    match continued? containers line, ending with
    | none, _ => ([], line :: rest)
    | some cursor, .containing marker =>
      if Text.occursIn marker cursor.rest then (rawLine cursor line, rest)
      else
        let (more, left) := htmlLines containers ending rest
        (rawLine cursor line ++ more, left)
    | some cursor, .blankLine =>
      if isBlankLine cursor.rest then ([], line :: rest)
      else
        let (more, left) := htmlLines containers ending rest
        (rawLine cursor line ++ more, left)

/-- The raw text of the lines that could belong to a link definition: those that continue the containers
and interrupt nothing. -/
def definitionLines (containers : List Container) : List Line → List (List Char)
  | [] => []
  | line :: rest =>
    match continued? containers line with
    | none => []
    | some cursor =>
      let (indent, next) := cursor.spaces 4
      if isBlankLine cursor.rest || (indent < 4 && interrupts containers next.rest true rest) then []
      else cursor.remaining :: definitionLines containers rest

/-- An open container and the blocks in it, last first. -/
structure Open where
  container : Container
  blocks : List Block

/-- A document under construction. -/
structure Builder where
  /-- The open containers, innermost first. -/
  stack : List Open
  blocks : List Block
  lastBlank : Bool
  /-- The innermost item has nothing but its marker so far. -/
  fresh : Bool
  definitions : List (List Char × Target)

namespace Builder

def start : Builder := ⟨[], [], false, false, []⟩

def containers (b : Builder) : List Container := (b.stack.map Open.container).reverse

def append (block : Block) (b : Builder) : Builder :=
  match b.stack with
  | [] => { b with blocks := block :: b.blocks }
  | top :: below => { b with stack := { top with blocks := block :: top.blocks } :: below }

def isOrdered (marker : Char) : Bool := marker = '.' || marker = ')'

def Open.close (top : Open) : Block :=
  match top.container with
  | .quote => .quote top.blocks.reverse
  | .list tight marker start => .list (if isOrdered marker then some start else none) tight top.blocks.reverse
  | .item _ => .item top.blocks.reverse

/-- Closes the innermost container. -/
def pop (b : Builder) : Builder :=
  match b.stack with
  | [] => b
  | top :: below =>
    let tightList := match top.container with
      | .list tight .. => tight
      | _ => false
    append (Open.close top) { b with stack := below, fresh := b.fresh && !tightList }

def push (container : Container) (b : Builder) : Builder := { b with stack := ⟨container, []⟩ :: b.stack }

/-- Closes containers until only the outermost `depth` are open. -/
def popTo (depth : Nat) (b : Builder) : Builder := (List.range (b.stack.length - depth)).foldl (fun b _ => b.pop) b

/-- An item whose first line was empty holds nothing that comes after a blank line. -/
def finishEmptyItem (b : Builder) : Builder :=
  let closed :=
    match b.fresh && b.lastBlank, b.stack with
    | true, ⟨.item _, _⟩ :: _ => b.pop
    | _, _ => b
  { closed with fresh := false }

/-- The list around the innermost item is not tight. -/
def loosen (b : Builder) : Builder :=
  match b.stack with
  | top :: ⟨.list _ marker start, blocks⟩ :: below =>
    { b with stack := top :: ⟨.list false marker start, blocks⟩ :: below }
  | _ => b

/-- Closes a list that waits for another item; a blank line before what comes next loosens the list around
it. -/
def finishList (b : Builder) : Builder :=
  let b := finishEmptyItem b
  let b :=
    match b.stack with
    | ⟨.list .., _⟩ :: _ => b.pop
    | _ => b
  if b.lastBlank then { loosen b with lastBlank := false } else b

/-- Goes on with a list of the same kind, or starts a new one. -/
def continueList (marker : Char) (number : Nat) (b : Builder) : Builder :=
  let b := finishEmptyItem b
  let fresh (b : Builder) : Builder := { b.push (.list true marker number) with lastBlank := false }
  match b.stack with
  | ⟨.list tight kind start, blocks⟩ :: below =>
    if kind = marker then
      { b with stack := ⟨.list (tight && !b.lastBlank) kind start, blocks⟩ :: below, lastBlank := false }
    else fresh b.finishList
  | [] => fresh b
  | _ => fresh b.finishList

end Builder

open Builder

/-- The marker of a list item at a cursor after `outer` columns of indentation: its kind and number, the
indentation of the item's further lines, and the cursor behind it. -/
def itemMarker? (outer : Nat) (cursor : Cursor) : Option (Char × Nat × Nat × Cursor) :=
  if isThematicBreak cursor.rest then none
  else
    match listMarker? cursor.rest with
    | none => none
    | some (kind, number, width) =>
      let (_, behind) := (cursor.advance width).spaces 1
      let indent := outer + width + 1
      if isBlankLine behind.rest then some (kind, number, indent, behind)
      else
        let (extra, next) := behind.spaces 4
        if extra < 4 then some (kind, number, indent + extra, next) else some (kind, number, indent, behind)

/-- Opens the containers that start on a line. The result has no cursor when the line ends with the marker
of an item. Each container takes at least one character, so the length of the line bounds their number. -/
def openContainers : Nat → Builder → Cursor → Builder × Option Cursor
  | 0, b, cursor => (b, some cursor)
  | fuel + 1, b, cursor =>
    let (outer, next) := cursor.spaces 4
    if outer = 4 then (b, some cursor)
    else
      match itemMarker? outer next with
      | some (kind, number, indent, behind) =>
        let b := (b.continueList kind number).push (.item indent)
        if isBlankLine behind.rest then ({ b with fresh := true }, none) else openContainers fuel b behind
      | none =>
        match next.rest with
        | '>' :: _ => openContainers fuel (b.finishList.push .quote) ((next.advance 1).spaces 1).2
        | _ => (b, some cursor)

/-- A blank line after the containers it continues. -/
def blankLine (b : Builder) : Builder :=
  match b.stack with
  | ⟨.quote, _⟩ :: _ => b
  | ⟨.item _, blocks⟩ :: below =>
    if b.fresh then { b with stack := ⟨.item 0, blocks⟩ :: below, lastBlank := true } else { b with lastBlank := true }
  | _ => { b with lastBlank := true }

def dropTrailingBlank (lines : List (List Char × Bool)) : List (List Char × Bool) :=
  (lines.reverse.dropWhile Prod.snd).reverse

/-- The leaf that starts at a cursor on a line, and the lines after it. -/
def leaf (b : Builder) (cursor : Cursor) (line : Line) (rest : List Line) : Builder × List Line :=
  let containers := b.containers
  let (indent, next) := cursor.spaces 4
  let text := next.rest
  if indent = 4 then
    let (more, left) := indentedLines containers rest
    let kept := dropTrailingBlank more
    let body := rawLine next line ++ (kept.map Prod.fst).flatten
    ({ b.append (.code none body) with lastBlank := kept.length < more.length }, left)
  else
    let html := match text with
      | '<' :: inside => Tag.block? inside
      | _ => none
    match html with
    | some ending =>
      let first := List.replicate (max cursor.pending indent) ' ' ++ text ++ (if line.ended then ['\n'] else [])
      let closed := match ending with
        | .containing marker => Text.occursIn marker text
        | .blankLine => false
      let (more, left) := if closed then ([], rest) else htmlLines containers ending rest
      (b.append (.html (first ++ more)), left)
    | none =>
      if isThematicBreak text then (b.append .rule, rest)
      else
        match atxHeading? text with
        | some (level, raw) => (b.append (.heading level (atxContent raw)), rest)
        | none =>
          match codeFence? text with
          | some (fence, length, info) =>
            let trimmed := ((info.dropWhile isSpace).reverse.dropWhile isSpace).reverse
            let (body, left) := fencedLines containers indent fence length rest
            (b.append (.code (some (unescape trimmed)) body), left)
          | none =>
            let candidates := text :: definitionLines containers rest
            match Link.definition? (joinLines candidates) with
            | some (definition, behind) =>
              let used := candidates.length - (if behind.isEmpty then 0 else behind.count '\n' + 1)
              ({ b with definitions := b.definitions ++ [definition] }, rest.drop (used - 1))
            | none =>
              match tableHead? containers text rest with
              | some (columns, below) =>
                let width := columns.length
                let head := (rowCells text).take width
                let (rows, left) := tableRows containers width below
                (b.append (.table columns (head ++ List.replicate (width - head.length) []) rows), left)
              | none =>
                let paragraph := paragraphLines containers rest
                let content := joinLines (text :: paragraph.lines)
                match paragraph.heading with
                | some level => (b.append (.heading level content), paragraph.rest)
                | none => (b.append (.paragraph content), paragraph.rest)

/-- Reads the line at hand and those that belong to the same leaf. -/
def step (b : Builder) (line : Line) (rest : List Line) : Builder × List Line :=
  let (count, cursor) := enter b.containers (.ofText line.text)
  let (b, cursor?) := openContainers (line.text.length + 1) (b.popTo count) cursor
  match cursor? with
  | none => (b, rest)
  | some cursor =>
    if isBlankLine cursor.rest then (blankLine b, rest) else leaf b.finishList cursor line rest

/-- Every step takes at least one line, so the number of lines bounds the steps. -/
def build : Nat → Builder → List Line → Builder
  | 0, b, _ => b
  | _, b, [] => b
  | fuel + 1, b, line :: rest =>
    let (b, left) := step b line rest
    build fuel b left

end Block

/-- The blocks of a text and its link definitions, of which the first for a label counts. -/
structure Tree where
  blocks : List Block
  definitions : List (List Char × Target)

def Tree.ofText (text : List Char) : Tree :=
  let all := lines text
  let b := (Block.build all.length .start all).popTo 0
  ⟨b.blocks.reverse, b.definitions⟩

end RouteBook.Markdown
