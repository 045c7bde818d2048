/-! How alike two words are, for suggestions. The measure counts the characters that the words share at nearly
the same places, and how many of those stand in another order. It is kept as a fraction. -/

namespace RouteBook.Text

/-- A fraction between zero and one. -/
structure Likeness where
  numerator : Nat
  denominator : Nat

def Likeness.le (x y : Likeness) : Bool := x.numerator * y.denominator ≤ y.numerator * x.denominator

/-- The first place from `low` up to `high` where a word has a character that is not taken yet. -/
def freePlace (word : List Char) (taken : List Nat) (low high : Nat) (c : Char) : Option Nat :=
  (word.zipIdx.find? fun (d, j) => low ≤ j && j < high && d = c && j ∉ taken).map Prod.snd

/-- Pairs of places of two words with the same character, at most `range` apart, each place used once. -/
def matched (range : Nat) (word : List Char) : List (Char × Nat) → List Nat → List (Nat × Nat)
  | [], _ => []
  | (c, i) :: rest, taken =>
    match freePlace word taken (i - range) (i + range + 1) c with
    | some j => (i, j) :: matched range word rest (j :: taken)
    | none => matched range word rest taken

/-- How alike two words are. -/
def likeness (first second : List Char) : Likeness :=
  let a := first.length
  let b := second.length
  let pairs := matched (max a b / 2 - 1) second first.zipIdx []
  let ordered := (pairs.map Prod.snd).mergeSort
  let moved := (pairs.zip ordered).countP fun ((i, _), j) => first[i]? ≠ second[j]?
  let shared := pairs.length
  if a = 0 && b = 0 then ⟨1, 1⟩
  else if shared = 0 then ⟨0, 1⟩
  else ⟨shared * shared * b + shared * shared * a + (shared - moved / 2) * a * b, 3 * a * b * shared⟩

/-- The word most like a given one, if it is more than seven tenths alike; of equals the last. -/
def mostSimilar? (word : String) (known : List String) : Option String :=
  let scored := known.map fun other => (likeness word.toList other.toList, other)
  let near := scored.filter fun (score, _) => 7 * score.denominator < 10 * score.numerator
  ((near.mergeSort fun x y => x.1.le y.1).getLast?).map Prod.snd

end RouteBook.Text
