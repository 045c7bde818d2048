import RouteBook.Text.Bytes

/-! Text in HTML and in addresses: which characters must be written as references, and the percent form of
bytes. -/

namespace RouteBook.Text

/-- The reference for a character that cannot stand in a text or in an attribute. -/
def htmlReference? (c : Char) : Option String :=
  if c = '&' then some "&amp;"
  else if c = '<' then some "&lt;"
  else if c = '>' then some "&gt;"
  else if c = '"' then some "&quot;"
  else if c = '\x27' then some "&#39;"
  else none

/-- A text written so that it is safe between tags and in attributes. -/
def escapeHtml (text : String) : String :=
  String.join (text.toList.map fun c => (htmlReference? c).getD c.toString)

def upperHexDigit (n : Nat) : Char := (Nat.digitChar n).toUpper

/-- A byte as a percent sign and two upper-case hexadecimal digits. -/
def percentByte (b : UInt8) : List Char := ['%', upperHexDigit (b.toNat / 16), upperHexDigit (b.toNat % 16)]

def isAsciiAlphanumeric (b : UInt8) : Bool :=
  (48 ≤ b && b ≤ 57) || (65 ≤ b && b ≤ 90) || (97 ≤ b && b ≤ 122)

/-- Bytes that stand for themselves in a percent-encoded text: letters, digits and `-`, `.`, `_`, `~`. -/
def isUnreserved (b : UInt8) : Bool := isAsciiAlphanumeric b || b = 45 || b = 46 || b = 95 || b = 126

def percentEncode (bytes : Bytes) : String :=
  String.ofList (bytes.flatMap fun b => if isUnreserved b then [Char.ofNat b.toNat] else percentByte b)

end RouteBook.Text
