import RouteBook.Text.Search

/-! Sets of characters given as ranges, for the properties whose members no short rule lists. -/

namespace RouteBook.Text

/-- A set of characters: the closed ranges of code points it is made of. -/
structure Ranges where
  spans : List (Nat × Nat)

namespace Ranges

def hexDigit (c : Char) : Nat :=
  if c.isDigit then c.toNat - 48 else c.toNat - 87

def hex (cs : List Char) : Nat := cs.foldl (fun n c => n * 16 + hexDigit c) 0

/-- Reads ranges written in lower-case hexadecimal as `lo-hi`, or `lo` for a single code point, with
commas between them. -/
def ofString (text : String) : Ranges where
  spans := (pieces ',' text.toList).map fun item =>
    match pieces '-' item with
    | [lo, hi] => (hex lo, hex hi)
    | _ => (hex item, hex item)

def contains (ranges : Ranges) (c : Char) : Bool :=
  ranges.spans.any fun (lo, hi) => lo ≤ c.toNat && c.toNat ≤ hi

end Ranges

end RouteBook.Text
