import RouteBook.Text.Quoted

/-! Addresses to listen on: an IPv4 address, or an IPv6 address in brackets with an optional scope, and a port.
Readers take what they can from the front of a text and give the rest. -/

namespace RouteBook.Server

structure Ipv4 where
  a : UInt8
  b : UInt8
  c : UInt8
  d : UInt8
  deriving DecidableEq, Repr

/-- Eight groups of 16 bits. -/
structure Ipv6 where
  groups : List UInt16
  length_eq : groups.length = 8
  deriving DecidableEq

/-- The two groups that an IPv4 address stands for. -/
def Ipv4.groups (ip : Ipv4) : List UInt16 :=
  [ip.a.toUInt16 * 256 + ip.b.toUInt16, ip.c.toUInt16 * 256 + ip.d.toUInt16]

def Ipv4.text (ip : Ipv4) : String :=
  String.intercalate "." ([ip.a, ip.b, ip.c, ip.d].map fun octet => toString octet.toNat)

def Ipv6.ofGroups? (groups : List UInt16) : Option Ipv6 :=
  if h : groups.length = 8 then some ⟨groups, h⟩ else none

/-- The first longest run of zero groups: where it starts and how long it is. -/
def Ipv6.zeroRun (groups : List UInt16) : Nat × Nat :=
  (List.range groups.length).foldl
    (fun best start =>
      let length := ((groups.drop start).takeWhile (· = 0)).length
      if best.2 < length then (start, length) else best)
    (0, 0)

def Ipv6.groupsText (groups : List UInt16) : String :=
  String.intercalate ":" (groups.map fun group => Text.hexDigits group.toNat)

/-- The shortest usual form: an IPv4 address embedded in the last groups is written as such, otherwise the
first longest run of at least two zero groups is left out. -/
def Ipv6.text (ip : Ipv6) : String :=
  match ip.groups with
  | [0, 0, 0, 0, 0, 0xffff, high, low] =>
    "::ffff:" ++ Ipv4.text ⟨(high / 256).toUInt8, high.toUInt8, (low / 256).toUInt8, low.toUInt8⟩
  | groups =>
    let (start, length) := zeroRun groups
    if 1 < length then groupsText (groups.take start) ++ "::" ++ groupsText (groups.drop (start + length))
    else groupsText groups

inductive Address where
  | v4 (ip : Ipv4) (port : UInt16)
  | v6 (ip : Ipv6) (scope : UInt32) (port : UInt16)
  deriving DecidableEq

namespace Address

/-- The value of a digit in a base up to sixteen. -/
def digitIn? (base : Nat) (c : Char) : Option Nat :=
  let n := c.toNat
  let value :=
    if 48 ≤ n && n ≤ 57 then some (n - 48)
    else if 97 ≤ n && n ≤ 102 then some (n - 87)
    else if 65 ≤ n && n ≤ 70 then some (n - 55)
    else none
  value.filter (· < base)

/-- The value of digits. -/
def digitsValue (base : Nat) (digits : List Char) : Nat :=
  digits.foldl (fun value c => value * base + (digitIn? base c).getD 0) 0

/-- A number below `bound` of at most `places` digits, if places are limited. Unless `zeros`, a number of
several digits does not start with a zero. -/
def readNumber (base bound : Nat) (places : Option Nat) (zeros : Bool) (text : List Char) :
    Option (Nat × List Char) :=
  let digits := text.takeWhile fun c => (digitIn? base c).isSome
  let value := digitsValue base digits
  if digits = [] || places.any (· < digits.length) || (!zeros && digits.head? = some '0' && 1 < digits.length) ||
      bound ≤ value then none
  else some (value, text.drop digits.length)

/-- Passes over one character. -/
def skip? (c : Char) : List Char → Option (List Char)
  | d :: rest => if d = c then some rest else none
  | [] => none

def readOctet (text : List Char) : Option (UInt8 × List Char) :=
  (readNumber 10 256 (some 3) false text).map fun (n, rest) => (n.toUInt8, rest)

def readIpv4 (text : List Char) : Option (Ipv4 × List Char) := do
  let (a, text) ← readOctet text
  let (b, text) ← readOctet (← skip? '.' text)
  let (c, text) ← readOctet (← skip? '.' text)
  let (d, text) ← readOctet (← skip? '.' text)
  some (⟨a, b, c, d⟩, text)

/-- The text of an item: every item but the first stands after a colon. -/
def afterColon (first : Bool) (text : List Char) : Option (List Char) := if first then some text else skip? ':' text

/-- At most `room` groups joined by colons. The last two may be written as an IPv4 address, which is told
beside the groups. -/
def readGroups : Nat → Bool → List Char → List UInt16 × Bool × List Char
  | 0, _, text => ([], false, text)
  | room + 1, first, text =>
    match (if 0 < room then (afterColon first text).bind readIpv4 else none) with
    | some (ip, rest) => (ip.groups, true, rest)
    | none =>
      match (afterColon first text).bind (readNumber 16 65536 (some 4) true) with
      | some (group, rest) =>
        let (groups, embedded, left) := readGroups room false rest
        (group.toUInt16 :: groups, embedded, left)
      | none => ([], false, text)

/-- Eight groups, or fewer with one gap `::` for the zeros that are left out. -/
def readIpv6 (text : List Char) : Option (Ipv6 × List Char) :=
  let (head, embedded, rest) := readGroups 8 true text
  if head.length = 8 then (Ipv6.ofGroups? head).map fun ip => (ip, rest)
  else if embedded then none
  else do
    let rest ← skip? ':' (← skip? ':' rest)
    let (tail, _, rest) := readGroups (7 - head.length) true rest
    let ip ← Ipv6.ofGroups? (head ++ List.replicate (8 - head.length - tail.length) 0 ++ tail)
    some (ip, rest)

def readPort (text : List Char) : Option (UInt16 × List Char) := do
  let (port, rest) ← readNumber 10 65536 none true (← skip? ':' text)
  some (port.toUInt16, rest)

/-- The scope of an IPv6 address, zero when none is written. -/
def readScope (text : List Char) : Option (UInt32 × List Char) :=
  match text with
  | '%' :: rest => (readNumber 10 UInt32.size none true rest).map fun (n, left) => (n.toUInt32, left)
  | _ => some (0, text)

def readV4 (text : List Char) : Option (Address × List Char) := do
  let (ip, text) ← readIpv4 text
  let (port, text) ← readPort text
  some (.v4 ip port, text)

def readV6 (text : List Char) : Option (Address × List Char) := do
  let (ip, text) ← readIpv6 (← skip? '[' text)
  let (scope, text) ← readScope text
  let (port, text) ← readPort (← skip? ']' text)
  some (.v6 ip scope port, text)

/-- The address that a whole text gives. -/
def parse? (text : String) : Option Address :=
  match (readV4 text.toList).or (readV6 text.toList) with
  | some (address, []) => some address
  | _ => none

def port : Address → UInt16
  | .v4 _ port | .v6 _ _ port => port

def isV6 : Address → Bool
  | .v4 .. => false
  | .v6 .. => true

/-- The address without its port and scope. -/
def ipText : Address → String
  | .v4 ip _ => ip.text
  | .v6 ip _ _ => ip.text

/-- The host part of an address: an IPv6 address in brackets with its scope, if it has one. -/
def hostText : Address → String
  | .v4 ip _ => ip.text
  | .v6 ip scope _ =>
    "[" ++ ip.text ++ (if scope = 0 then "" else "%" ++ toString scope.toNat) ++ "]"

def text (address : Address) : String := address.hostText ++ ":" ++ toString address.port.toNat

end Address
end RouteBook.Server
