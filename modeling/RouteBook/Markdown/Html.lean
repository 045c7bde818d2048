import RouteBook.Markdown.Event
import RouteBook.Text.Html

/-! Events written as HTML. The writer's only memory is whether what it wrote ended in a line feed: block
elements start on a line of their own. -/

namespace RouteBook.Markdown.Html

def bodyChar (c : Char) : List Char :=
  if c = '&' then "&amp;".toList
  else if c = '<' then "&lt;".toList
  else if c = '>' then "&gt;".toList
  else [c]

def attributeChar (c : Char) : List Char :=
  if c = '"' then "&quot;".toList
  else if c = '\x27' then "&#x27;".toList
  else bodyChar c

/-- Bytes of an address that stand for themselves. -/
def isHrefByte (b : UInt8) : Bool :=
  Text.isAsciiAlphanumeric b || Char.ofNat b.toNat ∈ "!#$%()*+,-./:;=?@_~".toList

def hrefByte (b : UInt8) : List Char :=
  if isHrefByte b then [Char.ofNat b.toNat]
  else if b = 38 then "&amp;".toList
  else if b = 39 then "&#x27;".toList
  else Text.percentByte b

/-- A text between tags. -/
def escapeBody (text : List Char) : List Char := text.flatMap bodyChar

/-- A text in an attribute. -/
def escapeAttribute (text : List Char) : List Char := text.flatMap attributeChar

/-- An address in an attribute. -/
def escapeHref (text : List Char) : List Char := (utf8 (String.ofList text)).flatMap hrefByte

/-- The plain text of an image's description. -/
def description : List Event → List Char
  | [] => []
  | .text chars :: rest | .code chars :: rest | .html chars :: rest => escapeAttribute chars ++ description rest
  | .softBreak :: rest | .hardBreak :: rest | .rule :: rest => ' ' :: description rest
  | .image _ inner :: rest => description inner ++ description rest
  | .enter _ :: rest | .leave _ :: rest => description rest

/-- What was written, last piece first, and whether it ended in a line feed. -/
structure Writer where
  pieces : List (List Char)
  lineStart : Bool

namespace Writer

def start : Writer := ⟨[], true⟩

def put (w : Writer) (chars : List Char) : Writer :=
  if chars.isEmpty then w else ⟨chars :: w.pieces, chars.getLast? = some '\n'⟩

def output (w : Writer) : List Char := w.pieces.reverse.flatten

/-- Writes a block's opening on a line of its own. -/
def putBlock (w : Writer) (opening : String) : Writer :=
  (if w.lineStart then w else w.put ['\n']).put opening.toList

end Writer

def number (n : Nat) : String := String.ofList (Nat.toDigits 10 n)

def alignmentStyle : Alignment → String
  | .none => ">"
  | .left => " style=\"text-align: left\">"
  | .center => " style=\"text-align: center\">"
  | .right => " style=\"text-align: right\">"

def titleAttribute (title : List Char) : List Char :=
  if title.isEmpty then [] else " title=\"".toList ++ escapeAttribute title ++ ['"']

def enter (w : Writer) : Element → Writer
  | .paragraph => w.putBlock "<p>"
  | .heading level => w.putBlock ("<h" ++ number level ++ ">")
  | .quote => w.putBlock "<blockquote>\n"
  | .code none => w.putBlock "<pre><code>"
  | .code (some language) =>
    if language.isEmpty then w.putBlock "<pre><code>"
    else ((w.putBlock "<pre><code class=\"language-").put (escapeAttribute language)).put "\">".toList
  | .html => w
  | .list none => w.putBlock "<ul>\n"
  | .list (some start) =>
    if start = 1 then w.putBlock "<ol>\n" else w.putBlock ("<ol start=\"" ++ number start ++ "\">\n")
  | .item => w.putBlock "<li>"
  | .table => w.put "<table>".toList
  | .tableHead => w.put "<thead><tr>".toList
  | .tableRow => w.put "<tr>".toList
  | .tableCell head alignment => w.put ((if head then "<th" else "<td") ++ alignmentStyle alignment).toList
  | .emphasis => w.put "<em>".toList
  | .strong => w.put "<strong>".toList
  | .link target =>
    w.put ("<a href=\"".toList ++ escapeHref target.destination ++ ['"'] ++ titleAttribute target.title ++ ['>'])

def leave (w : Writer) : Element → Writer
  | .paragraph => w.put "</p>\n".toList
  | .heading level => w.put ("</h" ++ number level ++ ">\n").toList
  | .quote => w.put "</blockquote>\n".toList
  | .code _ => w.put "</code></pre>\n".toList
  | .html => w
  | .list none => w.put "</ul>\n".toList
  | .list (some _) => w.put "</ol>\n".toList
  | .item => w.put "</li>\n".toList
  | .table => w.put "</tbody></table>\n".toList
  | .tableHead => w.put "</tr></thead><tbody>\n".toList
  | .tableRow => w.put "</tr>\n".toList
  | .tableCell head _ => w.put (if head then "</th>" else "</td>").toList
  | .emphasis => w.put "</em>".toList
  | .strong => w.put "</strong>".toList
  | .link _ => w.put "</a>".toList

/-- Writes one event. -/
def write (w : Writer) : Event → Writer
  | .enter element => enter w element
  | .leave element => leave w element
  | .text chars => w.put (escapeBody chars)
  | .code chars => w.put ("<code>".toList ++ escapeBody chars ++ "</code>".toList)
  | .html chars => w.put chars
  | .softBreak => w.put ['\n']
  | .hardBreak => w.put "<br />\n".toList
  | .rule => w.putBlock "<hr />\n"
  | .image target inner =>
    w.put ("<img src=\"".toList ++ escapeHref target.destination ++ "\" alt=\"".toList ++ description inner ++ ['"'] ++
      titleAttribute target.title ++ " />".toList)

/-- The HTML of some events. -/
def ofEvents (found : List Event) : String := String.ofList (found.foldl write .start).output

end RouteBook.Markdown.Html
