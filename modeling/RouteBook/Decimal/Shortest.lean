import RouteBook.Decimal.Binary

/-! The shortest decimal of a double: the fewest digits that read back as the same double, and of those
the nearest to it. A double stands for every real that rounds to it, an interval around it that contains
its ends when the significand is even. For 1, 2, … 17 digits the two neighbours of the number on that
decimal grid are tried, in exact arithmetic. -/

namespace RouteBook.Decimal

/-- The decimal `digits * 10 ^ exponent`. -/
structure Scientific where
  digits : Nat
  exponent : Int
  deriving DecidableEq

/-- The reals that round to a double, over a common denominator: the number and both ends. -/
structure Interval where
  low : Nat
  middle : Nat
  high : Nat
  denominator : Nat
  closed : Bool

def interval (x : Binary64) : Interval :=
  let m := 4 * x.significand
  let up := Nat.pow 2 x.scale
  { low := (m - (if x.atBinade then 1 else 2)) * up
    middle := m * up
    high := (m + 2) * up
    denominator := Nat.pow 2 1076
    closed := x.significand % 2 = 0 }

def Interval.scaleBy (i : Interval) (factor : Nat) : Interval :=
  { i with low := i.low * factor, middle := i.middle * factor, high := i.high * factor }

def Interval.contains (i : Interval) (y : Nat) : Bool :=
  if i.closed then i.low ≤ y && y ≤ i.high else i.low < y && y < i.high

/-- The nearest of the two neighbours on the grid of multiples of `unit` that lie in the interval. -/
def Interval.onGrid? (i : Interval) (unit : Nat) : Option Nat :=
  let below := i.middle / unit
  let above := below + 1
  match i.contains (below * unit), i.contains (above * unit) with
  | false, false => none
  | true, false => some below
  | false, true => some above
  | true, true =>
    let down := i.middle - below * unit
    let up := above * unit - i.middle
    if down < up || (down = up && below % 2 = 0) then some below else some above

/-- The power of ten just above the number: `10 ^ (p - 1) ≤ x < 10 ^ p`. -/
def Interval.point (i : Interval) : Int :=
  (Nat.toDigits 10 (i.middle * Nat.pow 10 400 / i.denominator)).length - 400

/-- Tries the grids of `count`, `count + 1`, … digits. -/
def Interval.search (i : Interval) : Nat → Nat → Scientific
  | _, 0 => ⟨i.middle / i.denominator, 0⟩
  | count, more + 1 =>
    let exponent := i.point - count
    let unit := i.denominator * Nat.pow 10 exponent.toNat
    match (i.scaleBy (Nat.pow 10 (-exponent).toNat)).onGrid? unit with
    | some digits => ⟨digits, exponent⟩
    | none => i.search (count + 1) more

/-- The shortest decimal of a finite double's magnitude; 17 digits always suffice. -/
def shortest (x : Binary64) : Scientific :=
  if x.isZero then ⟨0, 0⟩ else (interval x).search 1 17

/-- Where a layout switches from positional notation to an exponent, and how it writes one. `point` is the
number of digits before the decimal point, negative or zero for numbers below one. -/
structure Layout where
  positional : Int → Bool
  plus : Bool

def zeros (n : Nat) : List Char := List.replicate n '0'

/-- The digits with the decimal point after `point` of them, and at least one digit on each side. -/
def placePoint (digits : List Char) (point : Int) : List Char :=
  if point ≤ 0 then '0' :: '.' :: (zeros (-point).toNat ++ digits)
  else if point.toNat < digits.length then digits.take point.toNat ++ '.' :: digits.drop point.toNat
  else digits ++ zeros (point.toNat - digits.length) ++ ['.', '0']

def withExponent (plus : Bool) (digits : List Char) (point : Int) : List Char :=
  let exponent := point - 1
  let mantissa :=
    match digits with
    | d :: e :: rest => d :: '.' :: e :: rest
    | short => short
  let sign := if exponent < 0 then ['-'] else if plus then ['+'] else []
  mantissa ++ 'e' :: sign ++ Nat.toDigits 10 exponent.natAbs

/-- The text of a finite double in a layout. -/
def Layout.write (layout : Layout) (x : Binary64) : List Char :=
  let sign := if x.isNegative then ['-'] else []
  if x.isZero then sign ++ ['0', '.', '0']
  else
    let decimal := shortest x
    let all := Nat.toDigits 10 decimal.digits
    let point : Int := all.length + decimal.exponent
    let digits := (all.reverse.dropWhile (· = '0')).reverse
    sign ++ if layout.positional point then placePoint digits point else withExponent layout.plus digits point

end RouteBook.Decimal
