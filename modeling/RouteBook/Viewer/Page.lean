import RouteBook.Markdown.Html
import RouteBook.Text.Html

/-! The two pages of the document viewer: the list of documents and the page of one document. -/

namespace RouteBook.Viewer

/-- Raw HTML of a document is shown as text. -/
def asText : Markdown.Event → Markdown.Event
  | .html chars => .text chars
  | .image target inner => .image target (inner.map asText)
  | other => other

/-- The HTML of a document. -/
def body (markdown : String) : String := Markdown.Html.ofEvents ((Markdown.events markdown).map asText)

/-- A whole page around its content. -/
def shell (title content : String) : String :=
  "<!DOCTYPE html>\n<html>\n<head><meta charset=\"utf-8\"><title>" ++ title ++ "</title></head>\n<body>\n" ++ content ++
    "</body>\n</html>\n"

/-- The page of a document. -/
def documentPage (file markdown : String) : String :=
  shell (Text.escapeHtml file) ("<a href=\"/\">&larr; Back to all docs</a>\n" ++ body markdown)

/-- The link to a document in the list. -/
def indexItem (file : String) : String :=
  "<li><a href=\"/view?file=" ++ Text.percentEncode (utf8 file) ++ "\">" ++ Text.escapeHtml file ++ "</a></li>"

/-- The page that lists documents. -/
def indexPage (files : List String) : String :=
  shell "AutoDoc Viewer" ("<h1>Available Docs</h1>\n<ul>" ++ String.join (files.map indexItem) ++ "</ul>\n")

end RouteBook.Viewer
