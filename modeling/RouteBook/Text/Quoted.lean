import RouteBook.Text.Html
import RouteBook.Text.Visible

/-! The quoted form of a text or of a file path in messages and logs: double quotes around it, a
backslash before quotes and backslashes, short escapes for the usual controls, and the hexadecimal
code point in braces for whatever `isVisible` refuses. A path differs from a text in two ways: it also
escapes the apostrophe, and its bytes need not be UTF-8. -/

namespace RouteBook.Text

/-- Lower-case hexadecimal digits without leading zeros. -/
def hexDigits (n : Nat) : String := String.ofList (Nat.toDigits 16 n)

/-- How one character appears between the quotes. -/
def quotedChar (c : Char) : String :=
  if c = '"' then "\\\""
  else if c = '\\' then "\\\\"
  else if c = '\n' then "\\n"
  else if c = '\r' then "\\r"
  else if c = '\t' then "\\t"
  else if c = Char.ofNat 0 then "\\0"
  else if isVisible c then c.toString
  else "\\u\x7b" ++ hexDigits c.toNat ++ "\x7d"

def quoted (text : String) : String :=
  "\"" ++ String.join (text.toList.map quotedChar) ++ "\""

/-- How the bytes of a path appear between the quotes: as the characters of a text, with the apostrophe escaped too,
and each byte that belongs to none as its two hexadecimal digits. -/
def quotedBytes : Bytes → List String
  | [] => []
  | b :: rest =>
    match _h : Bytes.firstChar? (b :: rest) with
    | some (c, left) => (if c = '\x27' then "\\'" else quotedChar c) :: quotedBytes left
    | none => String.ofList ['\\', 'x', upperHexDigit (b.toNat / 16), upperHexDigit (b.toNat % 16)] :: quotedBytes rest
  termination_by bytes => bytes.length
  decreasing_by
    · exact Bytes.firstChar?_length _h
    · simp

/-- The quoted form of a path. -/
def quotedPath (path : Bytes) : String := "\"" ++ String.join (quotedBytes path) ++ "\""

end RouteBook.Text
