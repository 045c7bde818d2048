import RouteBook.Text.Quoted

/-! Why and where the reading of a JSON text stops. A fault records how many bytes of the text lay
beyond the place; the line and the column follow from that and the whole text. -/

namespace RouteBook.Json

/-- The kinds of value a typed reader names when it meets one it did not expect. -/
inductive Found
  | null
  | bool (b : Bool)
  | integer (text : String)
  | float (text : String)
  | string (text : String)
  | sequence
  | map
  deriving DecidableEq

def Found.message : Found → String
  | null => "null"
  | bool b => "boolean `" ++ (if b then "true" else "false") ++ "`"
  | integer text => "integer `" ++ text ++ "`"
  | float text => "floating point `" ++ text ++ "`"
  | string text => "string " ++ Text.quoted text
  | sequence => "sequence"
  | map => "map"

inductive Reason
  | eofValue
  | eofList
  | eofObject
  | eofString
  | expectedValue
  | expectedIdent
  | expectedColon
  | expectedListEnd
  | expectedObjectEnd
  | trailingComma
  | trailingCharacters
  | keyNotString
  | invalidNumber
  | numberOutOfRange
  | invalidEscape
  | loneSurrogate
  | unfinishedSurrogate
  | controlCharacter
  | tooDeep
  | wrongType (found : Found) (expected : String)
  | wrongLength (length : Nat) (expected : String)
  | unknownVariant (name : String) (known : List String)
  | missingField (name : String)
  | duplicateField (name : String)
  | wrongShape
  deriving DecidableEq

/-- A text ends too early, is no JSON, or is JSON of the wrong shape. -/
inductive Category
  | eof
  | syntactic
  | data
  deriving DecidableEq

def Reason.category : Reason → Category
  | eofValue | eofList | eofObject | eofString => .eof
  | wrongType .. | wrongLength .. | unknownVariant .. | missingField .. | duplicateField ..
  | wrongShape => .data
  | _ => .syntactic

def ticked (name : String) : String := "`" ++ name ++ "`"

def Reason.message : Reason → String
  | eofValue => "EOF while parsing a value"
  | eofList => "EOF while parsing a list"
  | eofObject => "EOF while parsing an object"
  | eofString => "EOF while parsing a string"
  | expectedValue => "expected value"
  | expectedIdent => "expected ident"
  | expectedColon => "expected `:`"
  | expectedListEnd => "expected `,` or `]`"
  | expectedObjectEnd => "expected `,` or `\x7d`"
  | trailingComma => "trailing comma"
  | trailingCharacters => "trailing characters"
  | keyNotString => "key must be a string"
  | invalidNumber => "invalid number"
  | numberOutOfRange => "number out of range"
  | invalidEscape => "invalid escape"
  | loneSurrogate => "lone leading surrogate in hex escape"
  | unfinishedSurrogate => "unexpected end of hex escape"
  | controlCharacter => "control character (\\u0000-\\u001F) found while parsing a string"
  | tooDeep => "recursion limit exceeded"
  | wrongType found expected => "invalid type: " ++ found.message ++ ", expected " ++ expected
  | wrongLength length expected => "invalid length " ++ toString length ++ ", expected " ++ expected
  | unknownVariant name known =>
    "unknown variant " ++ ticked name ++ ", expected " ++ String.intercalate " or " (known.map ticked)
  | missingField name => "missing field " ++ ticked name
  | duplicateField name => "duplicate field " ++ ticked name
  | wrongShape => "unexpected shape"

/-- A reason and the number of bytes of the text that lie beyond the place where it arose. -/
structure Fault where
  reason : Reason
  beyond : Nat
  deriving DecidableEq

/-- The number of bytes that a list of characters takes as UTF-8. -/
def byteLength (cs : List Char) : Nat := cs.foldl (fun n c => n + c.utf8Size) 0

/-- A fault `ahead` bytes into the rest of the text, or at the end of the text if that is nearer. -/
def Fault.within (reason : Reason) (rest : List Char) (ahead : Nat) : Fault :=
  ⟨reason, byteLength rest - ahead⟩

/-- A fault just before the rest of the text. -/
def Fault.before (reason : Reason) (rest : List Char) : Fault := .within reason rest 0

/-- A fault at the next byte of the text, or at its end. -/
def Fault.next (reason : Reason) (rest : List Char) : Fault := .within reason rest 1

/-- Line and column of a fault: lines count from one, and the column is the number of bytes of the last
line that stand before the place. -/
def Fault.position (fault : Fault) (text : String) : Nat × Nat :=
  let bytes := utf8 text
  let before := bytes.take (bytes.length - fault.beyond)
  let column := (before.reverse.takeWhile (· ≠ 10)).length
  (1 + before.count 10, column)

def Fault.message (fault : Fault) (text : String) : String :=
  let (line, column) := fault.position text
  fault.reason.message ++ " at line " ++ toString line ++ " column " ++ toString column

end RouteBook.Json
