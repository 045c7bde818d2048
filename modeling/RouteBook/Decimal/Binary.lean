/-! Double-precision numbers as bit patterns, so that equal numbers are equal values: the sign, the
significand and the binary exponent are read off the bits, and arithmetic goes through the machine's own
operations. -/

namespace RouteBook

structure Binary64 where
  bits : UInt64
  deriving DecidableEq, Inhabited

namespace Binary64

def ofFloat (x : Float) : Binary64 := ⟨x.toBits⟩

def toFloat (x : Binary64) : Float := Float.ofBits x.bits

def isNegative (x : Binary64) : Bool := Nat.pow 2 63 ≤ x.bits.toNat

def exponentField (x : Binary64) : Nat := x.bits.toNat / Nat.pow 2 52 % Nat.pow 2 11

def fraction (x : Binary64) : Nat := x.bits.toNat % Nat.pow 2 52

/-- The significand `m` of the magnitude `m * 2 ^ q`. -/
def significand (x : Binary64) : Nat :=
  if x.exponentField = 0 then x.fraction else Nat.pow 2 52 + x.fraction

/-- The exponent `q` of the magnitude `m * 2 ^ q`, as `q + 1074`. -/
def scale (x : Binary64) : Nat := x.exponentField - 1

/-- The gap to the next smaller magnitude is half the gap to the next larger one. -/
def atBinade (x : Binary64) : Bool := x.fraction = 0 && 1 < x.exponentField

def isZero (x : Binary64) : Bool := x.significand = 0

/-- The integer a finite double equals, if it is whole. -/
def toInt? (x : Binary64) : Option Int :=
  let scaled := x.significand * Nat.pow 2 x.scale
  if scaled % Nat.pow 2 1074 = 0 then
    let whole : Int := (scaled / Nat.pow 2 1074 : Nat)
    some (if x.isNegative then -whole else whole)
  else none

end Binary64

end RouteBook
