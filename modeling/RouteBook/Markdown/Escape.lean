import RouteBook.Markdown.Entity
import RouteBook.Text.Punctuation
import RouteBook.Text.Search

/-! Backslash escapes and character references in the parts of a text that are no running text: info
strings, link destinations and titles. -/

namespace RouteBook.Markdown

/-- One unescaped piece from the front of a text, and the rest. -/
def unescapeStep (c : Char) (rest : List Char) : List Char × List Char :=
  match c, rest with
  | '\\', d :: rest' => if Text.isAsciiPunctuation d then ([d], rest') else (['\\'], rest)
  | '&', _ => (Entity.read? rest).getD (['&'], rest)
  | _, _ => ([c], rest)

def unescape (text : List Char) : List Char := (Text.chunks unescapeStep text).flatten

end RouteBook.Markdown
