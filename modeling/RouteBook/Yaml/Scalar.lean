import RouteBook.Decimal.Shortest
import RouteBook.Text.Quoted

/-! How a text is written as a YAML scalar. A text with a line feed becomes a literal block; one that would
read back as null, a boolean or a number is put between apostrophes; all others stay plain. A style that
the characters of the text rule out gives way to the next safer one, the last of which escapes. -/

namespace RouteBook.Yaml

def oneOf (text : List Char) (options : List String) : Bool := options.any (·.toList = text)

def digitIn (base : Nat) (c : Char) : Option Nat :=
  let n :=
    if c.isDigit then c.toNat - 48
    else if 'a' ≤ c && c ≤ 'z' then c.toNat - 87
    else if 'A' ≤ c && c ≤ 'Z' then c.toNat - 55
    else 99
  if n < base then some n else none

def number? (base : Nat) (digits : List Char) : Option Nat :=
  if digits = [] then none
  else digits.foldl (fun n c => n.bind fun n => (digitIn base c).map fun d => n * base + d) (some 0)

def unsigned (text : List Char) : List Char :=
  match text with
  | '-' :: rest | '+' :: rest => rest
  | rest => rest

/-- Digits after a superfluous zero, with or without a sign: no number, but close enough to be quoted. -/
def zeroPadded (text : List Char) : Bool :=
  match unsigned text with
  | '0' :: d :: rest => (d :: rest).all Char.isDigit
  | _ => false

def radix? (text : List Char) : Option (Nat × List Char) :=
  match text with
  | '0' :: 'x' :: rest => some (16, rest)
  | '0' :: 'o' :: rest => some (8, rest)
  | '0' :: 'b' :: rest => some (2, rest)
  | _ => none

/-- Integers: decimal, or after `0x`, `0o` or `0b`, with a sign in front, of up to 128 bits, one of which
tells the sign if the number is negative. -/
def readsAsInteger (text : List Char) : Bool :=
  let digits := unsigned text
  let fits (n : Nat) : Bool := if text.head? = some '-' then n ≤ Nat.pow 2 127 else n < Nat.pow 2 128
  let prefixed :=
    match radix? digits with
    | some (base, rest) => (number? base rest).any fits
    | none => false
  prefixed || (!zeroPadded text && (number? 10 digits).any fits)

/-- The largest finite double and half a step beyond, at which rounding gives infinity. -/
def infinityFrom : Nat := Nat.pow 2 1024 - Nat.pow 2 970

/-- Finite decimals: digits with an optional point and an optional exponent. -/
def readsAsDecimal (text : List Char) : Bool :=
  let body := unsigned text
  let whole := body.takeWhile Char.isDigit
  let rest := body.dropWhile Char.isDigit
  let (fraction, rest) :=
    match rest with
    | '.' :: rest => (rest.takeWhile Char.isDigit, rest.dropWhile Char.isDigit)
    | rest => ([], rest)
  let exponent : Option Int :=
    match rest with
    | [] => some 0
    | c :: rest =>
      if c = 'e' || c = 'E' then
        let down := rest.head? = some '-'
        (number? 10 (unsigned rest)).map fun n => if down then -(n : Int) else n
      else none
  let digits := whole ++ fraction
  match exponent, number? 10 digits with
  | some exponent, some significand =>
    let places := exponent - fraction.length
    if significand = 0 || (places < 0 && digits.length ≤ places.natAbs) then true
    else if places < 0 then significand < infinityFrom * Nat.pow 10 places.natAbs
    else places < 400 && significand * Nat.pow 10 places.natAbs < infinityFrom
  | _, _ => false

def readsAsFloat (text : List Char) : Bool :=
  let bare :=
    match text with
    | '+' :: rest => rest
    | rest => rest
  let doubleSign :=
    match text with
    | '+' :: '+' :: _ | '+' :: '-' :: _ => true
    | _ => false
  !doubleSign && (oneOf bare [".inf", ".Inf", ".INF"] || oneOf text ["-.inf", "-.Inf", "-.INF"] ||
    oneOf text [".nan", ".NaN", ".NAN"] || readsAsDecimal bare)

/-- A plain scalar of these characters would not read back as a text. -/
def isAmbiguous (text : List Char) : Bool :=
  text = [] || oneOf text ["null", "Null", "NULL", "~"] ||
    oneOf text ["true", "True", "TRUE", "false", "False", "FALSE"] ||
    readsAsInteger text || zeroPadded text || readsAsFloat text

def isBreak (c : Char) : Bool :=
  c = '\r' || c = '\n' || c = '\x85' || c = '\u2028' || c = '\u2029'

def isPrintable (c : Char) : Bool :=
  let n := c.toNat
  n = 0xA || (0x20 ≤ n && n ≤ 0x7E) || (0xA0 ≤ n && n ≠ 0xFEFF && n ≠ 0xFFFE && n ≠ 0xFFFF)

/-- Blank for the purposes of an indicator: a space, a tab, a line break or the end. -/
def blankOrEnd : List Char → Bool
  | [] => true
  | c :: _ => c = ' ' || c = '\t' || isBreak c || c = Char.ofNat 0

/-- What the characters of a text rule out. -/
structure Analysis where
  multiline : Bool
  plain : Bool
  singleQuoted : Bool
  block : Bool

def startsDocument (text : List Char) : Bool :=
  "---".toList.isPrefixOf text || "...".toList.isPrefixOf text

/-- An indicator at the start of a text that would begin something other than a plain scalar. -/
def leadingIndicator : List Char → Bool
  | [] => false
  | c :: rest =>
    c ∈ "#,[]\x7b\x7d&*!|>'\"%@`".toList || ((c = '?' || c = ':' || c = '-') && blankOrEnd rest)

/-- A colon before a blank, or a number sign after one, beyond the first character. -/
def innerIndicator : List Char → Bool
  | [] => false
  | [_] => false
  | before :: c :: rest =>
    (c = ':' && blankOrEnd rest) || (c = '#' && blankOrEnd [before]) || innerIndicator (c :: rest)

/-- Two neighbouring characters with the given properties. -/
def adjacent (left right : Char → Bool) (text : List Char) : Bool :=
  (text.zip text.tail).any fun (a, b) => left a && right b

def analyse (text : List Char) : Analysis :=
  let space (c : Char) : Bool := c = ' '
  let edge (p : Char → Bool) : Bool := text.head?.any p || text.getLast?.any p
  let breaks := text.any isBreak
  let special := text.any (!isPrintable ·)
  let spaceBreak := adjacent space isBreak text
  let breakSpace := adjacent isBreak space text
  let indicator := startsDocument text || leadingIndicator text || innerIndicator text
  { multiline := breaks
    plain := !(edge space || edge isBreak || breakSpace || spaceBreak || special || breaks || indicator)
    singleQuoted := !(breakSpace || spaceBreak || special)
    block := !(text = [] || text.getLast?.any space || spaceBreak || special) }

inductive Style
  | plain
  | singleQuoted
  | doubleQuoted
  | literal
  deriving DecidableEq

/-- The style of a text; a literal block is out of place in a key on one line. -/
def styleOf (text : List Char) (inKey : Bool) : Style :=
  let a := analyse text
  if '\n' ∈ text then
    if a.block && !inKey then .literal else .doubleQuoted
  else if !isAmbiguous text && a.plain then .plain
  else if a.singleQuoted && !(inKey && a.multiline) then .singleQuoted
  else .doubleQuoted

def hexUpper (width n : Nat) : List Char :=
  let digits := (Nat.toDigits 16 n).map Char.toUpper
  List.replicate (width - digits.length) '0' ++ digits

def escapeChar (c : Char) : List Char :=
  let short : Option Char :=
    match c.toNat with
    | 0x00 => some '0'
    | 0x07 => some 'a'
    | 0x08 => some 'b'
    | 0x09 => some 't'
    | 0x0A => some 'n'
    | 0x0B => some 'v'
    | 0x0C => some 'f'
    | 0x0D => some 'r'
    | 0x1B => some 'e'
    | 0x22 => some '"'
    | 0x5C => some '\\'
    | 0x85 => some 'N'
    | 0xA0 => some '_'
    | 0x2028 => some 'L'
    | 0x2029 => some 'P'
    | _ => none
  match short with
  | some letter => ['\\', letter]
  | none =>
    if c.toNat ≤ 0xFF then '\\' :: 'x' :: hexUpper 2 c.toNat
    else if c.toNat ≤ 0xFFFF then '\\' :: 'u' :: hexUpper 4 c.toNat
    else '\\' :: 'U' :: hexUpper 8 c.toNat

def mustEscape (c : Char) : Bool :=
  !isPrintable c || isBreak c || c = '"' || c = '\\'

def doubleQuoted (text : List Char) : List Char :=
  '"' :: text.flatMap (fun c => if mustEscape c then escapeChar c else [c]) ++ ['"']

def indentation (indent : Nat) : List Char := List.replicate indent ' '

/-- Between apostrophes, an apostrophe doubled; after a line break the text goes on at the indentation. -/
def singleQuoted (indent : Nat) (text : List Char) : List Char :=
  let rec body (afterBreak : Bool) : List Char → List Char
    | [] => if afterBreak then indentation indent else []
    | c :: rest =>
      if isBreak c then c :: body true rest
      else
        (if afterBreak then indentation indent else []) ++ (if c = '\x27' then [c, c] else [c]) ++ body false rest
  '\x27' :: body false text ++ ['\x27']

/-- The header of a literal block: an indentation indicator when the text starts with white space, and what
becomes of the line breaks at its end. -/
def literalHeader (text : List Char) : List Char :=
  let hint := if text.head?.any (fun c => c = ' ' || isBreak c) then ['2'] else []
  let chomp :=
    match text.reverse with
    | [] => ['-']
    | [last] => if isBreak last then ['+'] else ['-']
    | last :: before :: _ => if !isBreak last then ['-'] else if isBreak before then ['+'] else []
  '|' :: hint ++ chomp

def literalBody (indent : Nat) (text : List Char) : List Char :=
  let rec body (afterBreak : Bool) : List Char → List Char
    | [] => []
    | c :: rest =>
      if isBreak c then c :: body true rest
      else (if afterBreak then indentation indent else []) ++ c :: body false rest
  body true text

/-- A text as a scalar whose further lines stand at `indent`. -/
def writeScalar (indent : Nat) (inKey : Bool) (text : List Char) : List Char :=
  match styleOf text inKey with
  | .plain => text
  | .singleQuoted => singleQuoted indent text
  | .doubleQuoted => doubleQuoted text
  | .literal => literalHeader text ++ '\n' :: literalBody indent text

end RouteBook.Yaml
