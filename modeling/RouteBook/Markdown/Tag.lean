import RouteBook.Markdown.Line
import RouteBook.Text.Search

/-! HTML in Markdown: which line starts begin a block of raw HTML and what ends it, and the tags, comments,
instructions and declarations that may stand in running text. -/

namespace RouteBook.Markdown.Tag

def lower (text : List Char) : List Char := text.map Char.toLower

def isNameChar (c : Char) : Bool := c.isAlphanum || c = '-'

def isAttributeStart (c : Char) : Bool := c.isAlpha || c = '_' || c = ':'

def isAttributeChar (c : Char) : Bool := c.isAlphanum || c = '_' || c = ':' || c = '.' || c = '-'

/-- White space inside a tag; line breaks only where `breaks` allows them. -/
def skipSpace (breaks : Bool) (text : List Char) : List Char :=
  text.dropWhile fun c => isSpace c || (breaks && c = '\n')

/-- A quoted attribute value up to its closing quote, or an unquoted one. -/
def attributeValue? (breaks : Bool) (text : List Char) : Option (List Char) :=
  match text with
  | [] => none
  | c :: rest =>
    if c = '"' || c = '\x27' then
      let value := rest.takeWhile (· ≠ c)
      if !breaks && '\n' ∈ value then none
      else
        match rest.drop value.length with
        | _ :: behind => some behind
        | [] => none
    else
      let value := text.takeWhile fun d => !(isSpace d || d ∈ ['\n', '"', '\x27', '=', '<', '>', '\x60'])
      if value.isEmpty then none else some (text.drop value.length)

/-- An attribute: a name, and perhaps a value after an equals sign. -/
def attribute? (breaks : Bool) (text : List Char) : Option (List Char) :=
  match text with
  | c :: rest =>
    if isAttributeStart c then
      let behind := rest.dropWhile isAttributeChar
      match skipSpace breaks behind with
      | '=' :: value => attributeValue? breaks (skipSpace breaks value)
      | _ => some behind
    else none
  | [] => none

/-- The attributes of a tag and its end. Every attribute takes at least one character, so the length of the
text bounds their number. -/
def attributes? (breaks : Bool) : Nat → List Char → Option (List Char)
  | 0, _ => none
  | fuel + 1, text =>
    match skipSpace breaks text with
    | '>' :: behind => some behind
    | '/' :: '>' :: behind => some behind
    | rest => if rest.length = text.length then none else (attribute? breaks rest).bind (attributes? breaks fuel)

/-- An opening or closing tag, read after its `<`; gives what follows it. -/
def tag? (breaks : Bool) (text : List Char) : Option (List Char) :=
  match text with
  | '/' :: c :: rest =>
    if c.isAlpha then
      match (rest.dropWhile isNameChar).dropWhile isSpace with
      | '>' :: behind => some behind
      | _ => none
    else none
  | c :: rest =>
    if c.isAlpha then attributes? breaks (rest.length + 1) (rest.dropWhile isNameChar) else none
  | [] => none

/-- A comment, read after `<!--`. -/
def comment? (text : List Char) : Option (List Char) :=
  match text with
  | '>' :: behind => some behind
  | '-' :: '>' :: behind => some behind
  | _ => (Text.splitAt? "-->".toList text).map Prod.snd

/-- Raw HTML in running text, read after its `<`; gives what follows it. -/
def inline? (text : List Char) : Option (List Char) :=
  match text with
  | '!' :: '-' :: '-' :: rest => comment? rest
  | '!' :: rest =>
    match Text.after? "[CDATA[".toList rest with
    | some inner => (Text.splitAt? "]]>".toList inner).map Prod.snd
    | none =>
      if rest.head?.any Char.isAlpha then (Text.splitAt? ['>'] rest).map Prod.snd else none
  | '?' :: rest => (Text.splitAt? "?>".toList rest).map Prod.snd
  | _ => tag? true text

/-- What ends a block of raw HTML: a line that contains a string, or a blank line. -/
inductive BlockEnd
  | containing (marker : List Char)
  | blankLine

def verbatimNames : List String := ["pre", "style", "script", "textarea"]

def blockNames : List String :=
  ["address", "article", "aside", "base", "basefont", "blockquote", "body", "center", "col", "colgroup", "dd",
    "details", "dialog", "dir", "div", "dl", "dt", "fieldset", "figcaption", "figure", "footer", "form", "frame",
    "frameset", "h1", "h2", "h3", "h4", "h5", "h6", "head", "header", "hr", "html", "iframe", "legend", "li", "link",
    "main", "menu", "menuitem", "nav", "noframes", "ol", "optgroup", "option", "p", "param", "search", "section",
    "summary", "table", "tbody", "td", "tfoot", "th", "thead", "title", "tr", "track", "ul"]

/-- The end of a block that only a closing marker ends, for the text after a `<`. -/
def markedEnd? (text : List Char) : Option (List Char) :=
  let verbatim := verbatimNames.findSome? fun name =>
    match Text.after? name.toList (lower (text.take name.length)), text.drop name.length with
    | some [], [] => some ("</" ++ name ++ ">").toList
    | some [], c :: _ => if isSpace c || c = '>' then some ("</" ++ name ++ ">").toList else none
    | _, _ => none
  match verbatim with
  | some marker => some marker
  | none =>
    if (Text.after? "!--".toList text).isSome then some "-->".toList
    else if text.head? = some '?' then some "?>".toList
    else if (Text.after? "![CDATA[".toList text).isSome then some "]]>".toList
    else
      match text with
      | '!' :: c :: _ => if c.isAlpha then some ['>'] else none
      | _ => none

def startsNamedBlock (text : List Char) : Bool :=
  let body :=
    match text with
    | '/' :: rest => rest
    | rest => rest
  let name := body.takeWhile Char.isAlphanum
  blockNames.any (·.toList = lower name) &&
    match body.drop name.length with
    | [] => true
    | c :: rest => c = ' ' || c = '\t' || c = '>' || (c = '/' && rest.head? = some '>')

/-- Whether the text after a `<` starts a block of raw HTML that can end a paragraph. -/
def interrupting? (text : List Char) : Option BlockEnd :=
  match markedEnd? text with
  | some marker => some (.containing marker)
  | none => if startsNamedBlock text then some .blankLine else none

/-- Whether the text after a `<` starts a block of raw HTML: also a complete tag alone on its line does. -/
def block? (text : List Char) : Option BlockEnd :=
  match interrupting? text with
  | some ending => some ending
  | none =>
    match tag? false text with
    | some behind => if isBlankLine behind then some .blankLine else none
    | none => none

end RouteBook.Markdown.Tag
