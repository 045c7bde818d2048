import RouteBook.Markdown.Escape
import RouteBook.Markdown.Line
import RouteBook.Text.Fold

/-! Link destinations, titles and labels, and the definitions that labels refer to. -/

namespace RouteBook.Markdown

/-- Where a link leads. -/
structure Target where
  destination : List Char
  title : List Char
  deriving DecidableEq

namespace Link

/-- A destination in angle brackets, read after the opening one. -/
def pointed? : List Char → Option (List Char × List Char)
  | [] => none
  | '>' :: rest => some ([], rest)
  | '\\' :: c :: rest =>
    if Text.isAsciiPunctuation c then (pointed? rest).map fun (d, left) => ('\\' :: c :: d, left)
    else (pointed? (c :: rest)).map fun (d, left) => ('\\' :: d, left)
  | c :: rest => if c = '\n' || c = '<' then none else (pointed? rest).map fun (d, left) => (c :: d, left)

/-- A destination without brackets: up to white space, a control or an unmatched closing parenthesis;
`nest` counts the open ones, of which there are at most 32. -/
def bare? (nest : Nat) : List Char → Option (List Char × List Char)
  | [] => if nest = 0 then some ([], []) else none
  | '\\' :: c :: rest =>
    if Text.isAsciiPunctuation c then (bare? nest rest).map fun (d, left) => ('\\' :: c :: d, left)
    else (bare? nest (c :: rest)).map fun (d, left) => ('\\' :: d, left)
  | c :: rest =>
    if c.toNat ≤ 0x20 then if nest = 0 then some ([], c :: rest) else none
    else if c = '(' then
      if 32 < nest then none else (bare? (nest + 1) rest).map fun (d, left) => (c :: d, left)
    else if c = ')' then
      match nest with
      | 0 => some ([], c :: rest)
      | n + 1 => (bare? n rest).map fun (d, left) => (c :: d, left)
    else (bare? nest rest).map fun (d, left) => (c :: d, left)

/-- The raw destination at the front of a text. -/
def destination? (text : List Char) : Option (List Char × List Char) :=
  match text with
  | '<' :: rest => pointed? rest
  | rest => bare? 0 rest

/-- The inside of a title up to its closing mark; indentation after a line break is dropped. -/
def titleBody? (opening closing : Char) : List Char → Option (List Char × List Char)
  | [] => none
  | '\\' :: c :: rest =>
    if Text.isAsciiPunctuation c then (titleBody? opening closing rest).map fun (t, left) => ('\\' :: c :: t, left)
    else (titleBody? opening closing (c :: rest)).map fun (t, left) => ('\\' :: t, left)
  | c :: rest =>
    if c = closing then some ([], rest)
    else if c = opening then none
    else (titleBody? opening closing rest).map fun (t, left) => (c :: t, left)

def dropIndentation (text : List Char) : List Char :=
  ((Text.pieces '\n' text).mapIdx fun i line => if i = 0 then line else line.dropWhile isSpace) |>.intersperse ['\n'] |>.flatten

/-- The title at the front of a text, unescaped. -/
def title? (text : List Char) : Option (List Char × List Char) :=
  let body (opening closing : Char) (rest : List Char) :=
    (titleBody? opening closing rest).map fun (t, left) => (unescape (dropIndentation t), left)
  match text with
  | '"' :: rest => body '"' '"' rest
  | '\x27' :: rest => body '\x27' '\x27' rest
  | '(' :: rest => body '(' ')' rest
  | _ => none

/-- White space with at most one line break. -/
def skipSeparator (text : List Char) : List Char :=
  match text.dropWhile isSpace with
  | '\n' :: rest => rest.dropWhile isSpace
  | rest => rest

/-- A target in parentheses, right after the text of a link. -/
def inline? (text : List Char) : Option (Target × List Char) :=
  match text with
  | '(' :: rest => do
    let (raw, rest) ← destination? (skipSeparator rest)
    let rest := skipSeparator rest
    let (title, rest) :=
      match title? rest with
      | some (title, rest') => (title, skipSeparator rest')
      | none => ([], rest)
    match rest with
    | ')' :: behind => some (⟨unescape raw, title⟩, behind)
    | _ => none
  | _ => none

/-- The raw inside of a label, read after its opening bracket: no bracket stands in it unescaped. -/
def labelBody? : List Char → Option (List Char × List Char)
  | [] => none
  | ']' :: rest => some ([], rest)
  | '[' :: _ => none
  | '\\' :: c :: rest => (labelBody? rest).map fun (l, left) => ('\\' :: c :: l, left)
  | c :: rest => (labelBody? rest).map fun (l, left) => (c :: l, left)

def isLabelSpace (c : Char) : Bool := isSpace c || c = '\n' || c = '\r'

/-- The form in which labels are compared: blanks collapsed, case folded. -/
def normalise (label : List Char) : List Char :=
  let parts := Text.pieces ' ' (label.map fun c => if isLabelSpace c then ' ' else c)
  (List.intercalate [' '] (parts.filter (!·.isEmpty))).flatMap Text.fold

/-- The label at the front of a text, in the form for comparison, read after its opening bracket. -/
def label? (text : List Char) : Option (List Char × List Char) := do
  let (raw, rest) ← labelBody? text
  if raw.all isLabelSpace || 1000 ≤ raw.length then none else some (normalise raw, rest)

/-- The end of a definition: the rest of its line is blank. -/
def lineEnd? (text : List Char) : Option (List Char) :=
  let line := text.takeWhile (· ≠ '\n')
  if isBlankLine line then some ((text.drop line.length).drop 1) else none

/-- A definition at the front of a paragraph, with the text behind it. A title that does not end its line
belongs to the definition only if it started on the same line, and then spoils it. -/
def definition? (text : List Char) : Option ((List Char × Target) × List Char) := do
  let inside ← match text with
    | '[' :: rest => some rest
    | _ => none
  let (label, rest) ← label? inside
  let rest ← match rest with
    | ':' :: rest => some rest
    | _ => none
  let (raw, behind) ← destination? (skipSeparator rest)
  if raw.isEmpty && behind.length = (skipSeparator rest).length then none
  else
    let destination := unescape raw
    let plain := (lineEnd? behind).map fun left => ((label, (⟨destination, []⟩ : Target)), left)
    let titleStart := skipSeparator behind
    if titleStart.length = behind.length && !behind.isEmpty then none
    else
      match title? titleStart with
      | some (title, left) =>
        match lineEnd? left with
        | some left' => some ((label, ⟨destination, title⟩), left')
        | none => plain
      | none => plain

end Link

end RouteBook.Markdown
