import RouteBook.Text.Bytes
import RouteBook.Text.Search

/-! Form-encoded queries: pairs joined by `&`, a name and a value joined by `=`, the plus sign for a space and
percent signs for other bytes. -/

namespace RouteBook.Http

def hexValue? (b : UInt8) : Option UInt8 :=
  if 48 ≤ b && b ≤ 57 then some (b - 48)
  else if 65 ≤ b && b ≤ 70 then some (b - 55)
  else if 97 ≤ b && b ≤ 102 then some (b - 87)
  else none

/-- A percent sign with two hexadecimal digits is the byte they give; any other percent sign is itself. -/
def percentDecode : Bytes → Bytes
  | 37 :: a :: b :: rest =>
    match hexValue? a, hexValue? b with
    | some high, some low => (high * 16 + low) :: percentDecode rest
    | _, _ => 37 :: percentDecode (a :: b :: rest)
  | c :: rest => c :: percentDecode rest
  | [] => []

/-- A name or a value of a form. -/
def formDecode (bytes : Bytes) : String :=
  lossy (percentDecode (bytes.map fun b => if b = 43 then 32 else b))

/-- The pairs of a form in order; empty pieces are passed over, and a name without `=` has an empty value. -/
def formPairs (query : Bytes) : List (String × String) :=
  ((Text.pieces 38 query).filter (· ≠ [])).map fun piece =>
    let name := piece.takeWhile (· ≠ 61)
    (formDecode name, formDecode (piece.drop (name.length + 1)))

end RouteBook.Http
