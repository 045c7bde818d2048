/-! Decimal whole numbers within bounds. A text is read from left to right, and the first character that cannot
be taken decides what is wrong with it. -/

namespace RouteBook.Text

inductive IntegerFault where
  | empty
  | invalidDigit
  | tooLarge
  | tooSmall
  deriving DecidableEq, Repr

def IntegerFault.message : IntegerFault → String
  | .empty => "cannot parse integer from empty string"
  | .invalidDigit => "invalid digit found in string"
  | .tooLarge => "number too large to fit in target type"
  | .tooSmall => "number too small to fit in target type"

/-- The value of a decimal digit. -/
def digit? (c : Char) : Option Nat := if c.isDigit then some (c.toNat - 48) else none

/-- Reads digits onto a number, up to a limit. -/
def readDigits (limit : Nat) (excess : IntegerFault) : Nat → List Char → Except IntegerFault Nat
  | value, [] => .ok value
  | value, c :: rest =>
    match digit? c with
    | none => .error .invalidDigit
    | some d => if limit < value * 10 + d then .error excess else readDigits limit excess (value * 10 + d) rest

/-- A number from zero to a limit; a plus sign may stand before it. -/
def readNat (limit : Nat) : List Char → Except IntegerFault Nat
  | [] => .error .empty
  | ['+'] => .error .invalidDigit
  | '+' :: digits => readDigits limit .tooLarge 0 digits
  | digits => readDigits limit .tooLarge 0 digits

/-- A number of 64 bits with a sign. -/
def readInt64 : List Char → Except IntegerFault Int
  | ['-'] => .error .invalidDigit
  | '-' :: digits => (readDigits (Nat.pow 2 63) .tooSmall 0 digits).map fun n => -(n : Int)
  | text => (readNat (Nat.pow 2 63 - 1) text).map fun n => (n : Int)

end RouteBook.Text
