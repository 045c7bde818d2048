import RouteBook.Markdown.Block
import RouteBook.Markdown.Inline

/-! A Markdown text as a sequence of events: the start and end of every element, and the texts between
them. Raw HTML is an event of its own, so that whoever writes the page can decide what becomes of it. -/

namespace RouteBook.Markdown

inductive Element
  | paragraph
  | heading (level : Nat)
  | quote
  /-- The language of a fenced block; an indented block has none. -/
  | code (language : Option (List Char))
  | html
  | list (start : Option Nat)
  | item
  | table
  | tableHead
  | tableRow
  | tableCell (head : Bool) (alignment : Alignment)
  | emphasis
  | strong
  | link (target : Target)

inductive Event
  | enter (element : Element)
  | leave (element : Element)
  | text (chars : List Char)
  | code (chars : List Char)
  | html (chars : List Char)
  | softBreak
  | hardBreak
  | rule
  /-- An image and the events of its description. -/
  | image (target : Target) (description : List Event)

namespace Event

def around (element : Element) (inside : List Event) : List Event :=
  .enter element :: inside ++ [.leave element]

mutual

def ofInline : Inline → List Event
  | .text chars => [.text chars]
  | .code chars => [.code chars]
  | .html chars => [.html chars]
  | .softBreak => [.softBreak]
  | .hardBreak => [.hardBreak]
  | .emphasis content => around .emphasis (ofInlines content)
  | .strong content => around .strong (ofInlines content)
  | .link target content => around (.link target) (ofInlines content)
  | .image target content => [.image target (ofInlines content)]

def ofInlines : List Inline → List Event
  | [] => []
  | item :: rest => ofInline item ++ ofInlines rest

end

def cells (read : List Char → List Event) (head : Bool) : List Alignment → List (List Char) → List Event
  | alignment :: columns, cell :: rest =>
    around (.tableCell head alignment) (read cell) ++ cells read head columns rest
  | _, _ => []

def firstWord (info : List Char) : List Char := info.takeWhile (· ≠ ' ')

mutual

/-- The events of a block; `tight` inside an item of a tight list, where paragraphs are not set apart. -/
def ofBlock (definitions : List (List Char × Target)) (tight : Bool) : Block → List Event
  | .paragraph content =>
    let inside := ofInlines (Inline.read definitions false content)
    if tight then inside else around .paragraph inside
  | .heading level content => around (.heading level) (ofInlines (Inline.read definitions false content))
  | .rule => [.rule]
  | .code info body => around (.code (info.map firstWord)) [.text body]
  | .html body => around .html [.html body]
  | .quote blocks => around .quote (ofBlocks definitions false blocks)
  | .list start isTight items => around (.list start) (ofBlocks definitions isTight items)
  | .item blocks => around .item (ofBlocks definitions tight blocks)
  | .table columns head rows =>
    let read (content : List Char) : List Event := ofInlines (Inline.read definitions true content)
    around .table (around .tableHead (cells read true columns head) ++
      rows.flatMap fun row => around .tableRow (cells read false columns row))

def ofBlocks (definitions : List (List Char × Target)) (tight : Bool) : List Block → List Event
  | [] => []
  | block :: rest => ofBlock definitions tight block ++ ofBlocks definitions tight rest

end

end Event

/-- The events of a Markdown text. -/
def events (text : String) : List Event :=
  let tree := Tree.ofText text.toList
  Event.ofBlocks tree.definitions false tree.blocks

end RouteBook.Markdown
