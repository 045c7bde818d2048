import RouteBook.Service.Tracing

/-! Ids of requests. A request that brings none gets a time-ordered id: 48 bits of milliseconds, a counter of
42 bits that starts anew at a random place in every millisecond, and 32 random bits, written as a UUID of
version 7. -/

namespace RouteBook.Service

open Http (Request Response Handler)

/-- What an id needs from outside: the clock and two random numbers. -/
structure Draw where
  millis : Nat
  seed : Nat
  tail : Nat

/-- The time and the counter of the last id. -/
structure IdClock where
  millis : Nat := 0
  counter : Nat := 0

namespace IdClock

/-- A counter starts below half its range, so that it can count on. -/
def seedRange : Nat := Nat.pow 2 41

def counterRange : Nat := Nat.pow 2 42

/-- The counter moves on while the time stands still or goes back, and a full counter moves the time. -/
def next (clock : IdClock) (draw : Draw) : IdClock :=
  if clock.millis < draw.millis then ⟨draw.millis, draw.seed % seedRange⟩
  else if clock.counter + 1 < counterRange then ⟨clock.millis, clock.counter + 1⟩
  else ⟨clock.millis + 1, draw.seed % seedRange⟩

/-- The 128 bits of an id: time, version, counter around the variant bits, random tail. -/
def bits (clock : IdClock) (tail : Nat) : Nat :=
  clock.millis % Nat.pow 2 48 * Nat.pow 2 80 + 7 * Nat.pow 2 76 +
    clock.counter / Nat.pow 2 30 % Nat.pow 2 12 * Nat.pow 2 64 + 2 * Nat.pow 2 62 +
    clock.counter % Nat.pow 2 30 * Nat.pow 2 32 + tail % Nat.pow 2 32

end IdClock

/-- Some lower-case hexadecimal digits, the last of which has the given place. -/
def hexGroup (value place count : Nat) : List Char :=
  (List.range count).reverse.map fun i => Nat.digitChar (value / Nat.pow 16 (place + i) % 16)

/-- Thirty-two hexadecimal digits in groups of 8, 4, 4, 4 and 12. -/
def uuidText (value : Nat) : String :=
  String.ofList (List.intercalate ['-']
    [hexGroup value 24 8, hexGroup value 20 4, hexGroup value 16 4, hexGroup value 12 4, hexGroup value 0 12])

/-- A new id and the clock after it. -/
def newId (clock : IdClock) (draw : Draw) : IdClock × String :=
  let next := clock.next draw
  (next, uuidText (next.bits draw.tail))

def isLowerHex (c : Char) : Bool := c.isDigit || ('a' ≤ c && c ≤ 'f')

/-- The written form of a UUID of version 7. -/
def isUuidV7 (text : String) : Bool :=
  let chars := text.toList
  chars.length = 36 &&
    chars.zipIdx.all fun (c, i) =>
      if i = 8 || i = 13 || i = 18 || i = 23 then c = '-'
      else if i = 14 then c = '7'
      else if i = 19 then c = '8' || c = '9' || c = 'a' || c = 'b'
      else isLowerHex c

/-- Gives a request an id unless it brings one. -/
def identified (id : String) (inner : Handler) : Handler := fun request =>
  match request.header? requestIdHeader with
  | some _ => inner request
  | none => inner { request with headers := request.headers ++ [(requestIdHeader, utf8 id)] }

/-- Sends the id of the request back with the response. -/
def echoed (inner : Handler) : Handler := fun request =>
  let (response, log) := inner request
  match request.header? requestIdHeader, response.header? requestIdHeader with
  | some id, none => (response.setHeader requestIdHeader id, log)
  | _, _ => (response, log)

end RouteBook.Service
