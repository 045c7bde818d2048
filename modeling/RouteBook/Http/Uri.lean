import RouteBook.Text.Search

/-! Request targets: a path with a query, an absolute address, or an authority alone. A fragment is dropped. -/

namespace RouteBook.Http

/-- Why a request is refused before any service sees it. -/
inductive Refusal where
  | method
  | headerName
  | headerValue
  | emptyUri
  | uriCharacter
  | uriFormat
  | uriLength
  | authority
  | scheme
  deriving DecidableEq, Repr

def Refusal.message : Refusal → String
  | .method => "invalid HTTP method"
  | .headerName => "invalid HTTP header name"
  | .headerValue => "failed to parse header value"
  | .emptyUri => "empty string"
  | .uriCharacter => "invalid uri character"
  | .uriFormat => "invalid format"
  | .uriLength => "uri too long"
  | .authority => "invalid authority"
  | .scheme => "scheme too long"

structure Uri where
  scheme : Option (List Char)
  authority : List Char
  /-- Empty only when the target is an authority alone. -/
  path : List Char
  query : Option (List Char)
  deriving DecidableEq, Repr

namespace Uri

/-- Characters of a path: visible ones without `#`, `<`, `>`, `?` and the backtick. -/
def isPathChar (c : Char) : Bool :=
  0x21 ≤ c.toNat && !"#<>?\x60".toList.contains c

/-- Characters of a query: visible ones without `"`, `#`, `<` and `>`. -/
def isQueryChar (c : Char) : Bool :=
  0x21 ≤ c.toNat && !"\"#<>".toList.contains c

/-- Characters of a scheme. -/
def isSchemeChar (c : Char) : Bool := c.isAlphanum || "+-.~".toList.contains c

/-- Characters of an authority other than the percent sign. -/
def isAuthorityChar (c : Char) : Bool := c.isAlphanum || "!$&'()*+,-.:;=@[]_~".toList.contains c

/-- A path with an optional query, without a fragment. An empty path is the root. -/
def parsePath (text : List Char) : Except Refusal (List Char × Option (List Char)) :=
  let path := text.takeWhile isPathChar
  let root (path : List Char) : List Char := if path = [] then ['/'] else path
  match text.dropWhile isPathChar with
  | [] => .ok (root path, none)
  | '#' :: _ => .ok (root path, none)
  | '?' :: rest =>
    match rest.dropWhile isQueryChar with
    | [] => .ok (root path, some rest)
    | '#' :: _ => .ok (root path, some (rest.takeWhile isQueryChar))
    | _ => .error .uriCharacter
  | _ => .error .uriCharacter

/-- What has been met on the way through an authority. -/
structure AuthorityScan where
  /-- Colons that may stand before a port. -/
  colons : Nat := 0
  opened : Bool := false
  closed : Bool := false
  percent : Bool := false
  /-- The last character was an at sign. -/
  atSign : Bool := false

/-- The end of an authority: brackets match, at most one colon is left for a port, something follows the at
sign, and no percent sign stands outside the user part. -/
def AuthorityScan.finish (scan : AuthorityScan) : Except Refusal Unit :=
  if scan.opened != scan.closed || 1 < scan.colons || scan.atSign || scan.percent then .error .authority else .ok ()

/-- The authority at the front of a text and what follows it, which is empty or starts with `/`, `?` or `#`. -/
def scanAuthority (scan : AuthorityScan) : List Char → Except Refusal (List Char × List Char)
  | [] => do
    scan.finish
    .ok ([], [])
  | c :: rest => do
    if c = '/' || c = '?' || c = '#' then
      scan.finish
      return ([], c :: rest)
    let next : AuthorityScan ←
      if c = '%' then .ok { scan with percent := true, atSign := false }
      else if !isAuthorityChar c then .error .uriCharacter
      else if c = ':' then
        if 8 ≤ scan.colons then .error .authority else .ok { scan with colons := scan.colons + 1, atSign := false }
      else if c = '[' then
        if scan.percent || scan.opened then .error .authority else .ok { scan with opened := true, atSign := false }
      else if c = ']' then
        if !scan.opened || scan.closed then .error .authority
        else .ok { scan with closed := true, colons := 0, percent := false, atSign := false }
      else if c = '@' then .ok { scan with colons := 0, percent := false, atSign := true }
      else .ok { scan with atSign := false }
    let (front, left) ← scanAuthority next rest
    .ok (c :: front, left)

/-- The longest scheme. -/
def schemeLimit : Nat := 64

/-- The scheme at the front of a text and what follows `://`. The two usual schemes are written in lower
case. -/
def splitScheme (text : List Char) : Except Refusal (Option (List Char) × List Char) :=
  let name := text.takeWhile isSchemeChar
  match text.dropWhile isSchemeChar with
  | ':' :: '/' :: '/' :: rest =>
    let lower := name.map Char.toLower
    if lower = "http".toList || lower = "https".toList then .ok (some lower, rest)
    else if text.length ≤ 3 then .ok (none, text)
    else if schemeLimit < name.length then .error .scheme
    else .ok (some name, rest)
  | _ => .ok (none, text)

/-- The longest target in bytes. -/
def sizeLimit : Nat := 65534

def parse (source : String) : Except Refusal Uri := do
  let text := source.toList
  if sizeLimit < source.utf8ByteSize then .error .uriLength
  match text with
  | [] => .error .emptyUri
  | ['*'] => .ok { scheme := none, authority := [], path := ['*'], query := none }
  | '/' :: _ => do
    let (path, query) ← parsePath text
    .ok { scheme := none, authority := [], path := path, query := query }
  | _ => do
    let (scheme, rest) ← splitScheme text
    if rest = [] then .error .emptyUri
    let (authority, left) ← scanAuthority {} rest
    match scheme with
    | none =>
      if left ≠ [] then .error (if text.length = 1 then .uriCharacter else .uriFormat)
      else .ok { scheme := none, authority := authority, path := [], query := none }
    | some _ => do
      if authority = [] then .error .uriFormat
      let (path, query) ← parsePath left
      .ok { scheme := scheme, authority := authority, path := path, query := query }

def pathText (uri : Uri) : String := String.ofList uri.path

/-- The whole target as it is shown in logs. -/
def text (uri : Uri) : String :=
  let scheme := (uri.scheme.map fun name => name ++ "://".toList).getD []
  let query := (uri.query.map fun q => '?' :: q).getD []
  String.ofList (scheme ++ uri.authority ++ uri.path ++ query)

end Uri
end RouteBook.Http
