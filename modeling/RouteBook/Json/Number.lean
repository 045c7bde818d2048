import RouteBook.Decimal.Shortest
import RouteBook.Json.Fault

/-! JSON numbers. An integer literal that fits 64 bits, signed or unsigned, stays an integer; every other
literal becomes a double by a fast rule that need not be the nearest one: the digits without the point
form an unsigned 64-bit number, digits that would overflow it are dropped and only move the exponent, and
the result is that number converted, then multiplied or divided by the power of ten. -/

namespace RouteBook.Json

inductive Number
  | int (value : Int)
  | float (value : Binary64)
  deriving DecidableEq

/-- Doubles in JSON: positional from `0.00001` up to sixteen digits before the point, else with a signed
exponent. -/
def floatLayout : Decimal.Layout where
  positional point := -5 < point && point ≤ 16
  plus := true

def Number.write : Number → List Char
  | int value => if value < 0 then '-' :: Nat.toDigits 10 value.natAbs else Nat.toDigits 10 value.natAbs
  | float value => floatLayout.write value

namespace Number

def digitValue (c : Char) : Nat := c.toNat - 48

/-- Digits absorbed into an unsigned 64-bit significand: the significand, how many digits it took, and
how many were dropped from the first one on that would have overflowed it. -/
def absorb (significand : Nat) : List Char → Nat × Nat × Nat
  | [] => (significand, 0, 0)
  | d :: ds =>
    let grown := significand * 10 + digitValue d
    if grown < UInt64.size then
      let (total, taken, dropped) := absorb grown ds
      (total, taken + 1, dropped)
    else (significand, 0, ds.length + 1)

/-- Division by ten to the `exponent`, by at most `10 ^ 308` at a time. -/
def shrink (x : Float) (exponent : Nat) : Float :=
  if exponent ≤ 308 then x / Float.ofScientific 1 false exponent
  else if x == 0.0 then x
  else shrink (x / Float.ofScientific 1 false 308) (exponent - 308)
  termination_by exponent

/-- The double of `significand * 10 ^ exponent`, unless it is too large. -/
def toFloat? (significand : Nat) (exponent : Int) : Option Float :=
  let x := (UInt64.ofNat significand).toFloat
  if exponent < 0 then some (shrink x exponent.natAbs)
  else if exponent ≤ 308 then
    let y := x * Float.ofScientific 1 false exponent.natAbs
    if y.isInf then none else some y
  else if x == 0.0 then some x
  else none

def signed (negative : Bool) (x : Float) : Number :=
  .float (.ofFloat (if negative then -x else x))

/-- An integer literal: kept exactly in the 64-bit ranges; `-0` and negative numbers below the signed range
are doubles. -/
def ofInteger (negative : Bool) (significand : Nat) : Number :=
  if !negative then .int significand
  else if 0 < significand && significand ≤ Nat.pow 2 63 then .int (-significand)
  else signed true (UInt64.ofNat significand).toFloat

/-- A scaled literal, faulty when it is too large; `rest` is the text after it. -/
def scaled (negative : Bool) (significand : Nat) (exponent : Int) (rest : List Char) :
    Except Fault (Number × List Char) :=
  match toFloat? significand exponent with
  | some x => .ok (signed negative x, rest)
  | none => .error (.before .numberOutOfRange rest)

/-- The digits of an exponent as a number, or what is left after the digit with which it passes `2 ^ 31`. -/
def exponentOf (value : Nat) : List Char → Except (List Char) Nat
  | [] => .ok value
  | d :: ds =>
    let grown := value * 10 + digitValue d
    if grown < Nat.pow 2 31 then exponentOf grown ds else .error ds

/-- The exponent of a literal, read after its `e`. -/
def readExponent (negative : Bool) (significand : Nat) (start : Int) (text : List Char) :
    Except Fault (Number × List Char) :=
  let (down, digits) :=
    match text with
    | '+' :: rest => (false, rest)
    | '-' :: rest => (true, rest)
    | rest => (false, rest)
  match digits with
  | [] => .error (.before .eofValue [])
  | c :: _ =>
    if !c.isDigit then .error (.next .invalidNumber digits)
    else
      let shown := digits.takeWhile Char.isDigit
      let rest := digits.dropWhile Char.isDigit
      match exponentOf 0 shown with
      | .ok exponent => scaled negative significand (if down then start - exponent else start + exponent) rest
      | .error left =>
        if significand ≠ 0 && !down then .error (.before .numberOutOfRange (left ++ rest))
        else .ok (signed negative 0.0, rest)

/-- The fraction of a literal, read after its point. -/
def readFraction (negative : Bool) (significand : Nat) (start : Int) (text : List Char) :
    Except Fault (Number × List Char) :=
  let shown := text.takeWhile Char.isDigit
  let rest := text.dropWhile Char.isDigit
  match shown, rest with
  | [], [] => .error (.before .eofValue [])
  | [], _ => .error (.next .invalidNumber rest)
  | _, _ =>
    let (total, taken, _) := absorb significand shown
    let exponent := start - taken
    match rest with
    | 'e' :: rest' | 'E' :: rest' => readExponent negative total exponent rest'
    | _ => scaled negative total exponent rest

/-- A number literal, read after its minus sign if it has one. -/
def read (negative : Bool) (text : List Char) : Except Fault (Number × List Char) :=
  match text with
  | [] => .error (.before .eofValue [])
  | c :: rest =>
    if !c.isDigit then .error (.next .invalidNumber text)
    else if c = '0' && rest.head?.any Char.isDigit then .error (.next .invalidNumber rest)
    else
      let shown := text.takeWhile Char.isDigit
      let rest := text.dropWhile Char.isDigit
      let (total, _, dropped) := absorb 0 shown
      match rest with
      | '.' :: rest' => readFraction negative total dropped rest'
      | 'e' :: rest' | 'E' :: rest' => readExponent negative total dropped rest'
      | _ => if dropped = 0 then .ok (ofInteger negative total, rest) else scaled negative total dropped rest

end Number

end RouteBook.Json
