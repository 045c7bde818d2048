/-! Byte strings and the texts they encode. File names, file contents, header values and environment
values are byte strings; a text is one whose bytes are valid UTF-8. `lossy` is the reading that never
fails: every maximal ill-formed piece becomes one replacement character. -/

namespace RouteBook

abbrev Bytes := List UInt8

/-- The UTF-8 bytes of a text. -/
def utf8 (text : String) : Bytes := text.toUTF8.data.toList

/-- The text a byte string encodes, if it is valid UTF-8. -/
def utf8? (bytes : Bytes) : Option String := String.fromUTF8? ⟨bytes.toArray⟩

theorem utf8?_utf8 (text : String) : utf8? (utf8 text) = some text := by
  have h : (⟨(utf8 text).toArray⟩ : ByteArray) = text.toByteArray := by simp [utf8]
  rw [utf8?, h, String.fromUTF8?, dif_pos text.isValidUTF8]
  rfl

namespace Bytes

/-- A continuation byte `10xxxxxx` whose value lies in the given range. -/
def continues (lo hi : UInt8) : Bytes → Option (UInt8 × Bytes)
  | b :: rest => if lo ≤ b && b ≤ hi then some (b, rest) else none
  | [] => none

/-- What the lead byte of a longer sequence asks for: the payload of the lead byte, the range of the
second byte, and how many plain continuation bytes follow that one. -/
def lead (b : UInt8) : Option (Nat × UInt8 × UInt8 × Nat) :=
  let n := b.toNat
  if n < 0xC2 then none
  else if n < 0xE0 then some (n % 32, 0x80, 0xBF, 0)
  else if n = 0xE0 then some (0, 0xA0, 0xBF, 1)
  else if n = 0xED then some (n % 16, 0x80, 0x9F, 1)
  else if n < 0xF0 then some (n % 16, 0x80, 0xBF, 1)
  else if n = 0xF0 then some (0, 0x90, 0xBF, 2)
  else if n < 0xF4 then some (n % 8, 0x80, 0xBF, 2)
  else if n = 0xF4 then some (4, 0x80, 0x8F, 2)
  else none

/-- Reads `more` plain continuation bytes onto the payload; stops before the first byte that is not one. -/
def payload : Nat → Nat → Bytes → Option Nat × Bytes
  | value, 0, rest => (some value, rest)
  | value, more + 1, rest =>
    match continues 0x80 0xBF rest with
    | some (b, rest') => payload (value * 64 + b.toNat % 64) more rest'
    | none => (none, rest)

/-- The first character of a byte string after its first byte `b`, with what follows; an ill-formed
sequence counts as one replacement character and ends before the first byte that cannot continue it. -/
def firstChar (b : UInt8) (rest : Bytes) : Char × Bytes :=
  if b < 0x80 then (Char.ofNat b.toNat, rest)
  else
    match lead b with
    | none => ('\uFFFD', rest)
    | some (value, lo, hi, more) =>
      match continues lo hi rest with
      | none => ('\uFFFD', rest)
      | some (c, rest') =>
        match payload (value * 64 + c.toNat % 64) more rest' with
        | (some code, rest'') => (Char.ofNat code, rest'')
        | (none, rest'') => ('\uFFFD', rest'')

theorem continues_length {lo hi : UInt8} {bytes rest : Bytes} {b : UInt8}
    (h : continues lo hi bytes = some (b, rest)) : rest.length < bytes.length := by
  cases bytes with
  | nil => simp [continues] at h
  | cons c cs =>
    simp only [continues] at h
    split at h
    · simp at h; simp [h.2]
    · simp at h

theorem payload_length (value more : Nat) (bytes : Bytes) :
    (payload value more bytes).2.length ≤ bytes.length := by
  induction more generalizing value bytes with
  | zero => simp [payload]
  | succ more ih =>
    simp only [payload]
    split
    · next b rest' h => exact Nat.le_trans (ih _ _) (Nat.le_of_lt (continues_length h))
    · simp

theorem firstChar_length (b : UInt8) (rest : Bytes) :
    (firstChar b rest).2.length ≤ rest.length := by
  unfold firstChar
  split
  · simp
  · split
    · simp
    · split
      · simp
      · next _ value lo hi more _ _ c rest' h =>
        have hp := payload_length (value * 64 + c.toNat % 64) more rest'
        have hc := continues_length h
        split
        · next code rest'' hq => rw [hq] at hp; simp at hp ⊢; omega
        · next rest'' hq => rw [hq] at hp; simp at hp ⊢; omega

/-- The character that a byte string starts with and what follows, if the string starts with the bytes of one. -/
def firstChar? : Bytes → Option (Char × Bytes)
  | [] => none
  | b :: rest =>
    let (c, left) := firstChar b rest
    if b :: rest = String.utf8EncodeChar c ++ left then some (c, left) else none

theorem firstChar?_length {bytes left : Bytes} {c : Char} (h : firstChar? bytes = some (c, left)) :
    left.length < bytes.length := by
  cases bytes with
  | nil => cases h
  | cons b rest =>
    simp only [firstChar?] at h
    split at h
    · cases h
      exact Nat.lt_succ_of_le (firstChar_length b rest)
    · cases h

/-- The characters of a byte string, each maximal ill-formed piece read as U+FFFD. -/
def lossyChars : Bytes → List Char
  | [] => []
  | b :: rest =>
    have : (firstChar b rest).2.length < rest.length + 1 := Nat.lt_succ_of_le (firstChar_length b rest)
    (firstChar b rest).1 :: lossyChars (firstChar b rest).2
  termination_by bytes => bytes.length

end Bytes

/-- The text of a byte string, each maximal ill-formed piece read as U+FFFD. -/
def lossy (bytes : Bytes) : String := String.ofList bytes.lossyChars

/-- Byte strings in their order as file names: bytewise, a proper beginning first. -/
def bytesLe : Bytes → Bytes → Bool
  | [], _ => true
  | _ :: _, [] => false
  | a :: as, b :: bs => a < b || (a == b && bytesLe as bs)

end RouteBook
