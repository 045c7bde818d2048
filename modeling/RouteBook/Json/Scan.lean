import RouteBook.Json.Fault

/-! The lexical part of reading JSON: white space, the three words, and strings with their escapes. Every
reader takes the rest of the text and gives what it read together with the new rest. -/

namespace RouteBook.Json

abbrev Reader (α : Type) := List Char → Except Fault (α × List Char)

def isSpace (c : Char) : Bool := c = ' ' || c = '\n' || c = '\t' || c = '\r'

def skipSpace (text : List Char) : List Char := text.dropWhile isSpace

/-- Expects the given letters next. -/
def readWord : List Char → Reader Unit
  | [], text => .ok ((), text)
  | _ :: _, [] => .error (.before .eofValue [])
  | c :: cs, d :: rest =>
    if c = d then readWord cs rest else .error (.next .expectedIdent (d :: rest))

def hexValue? (c : Char) : Option Nat :=
  if c.isDigit then some (c.toNat - 48)
  else if 'a' ≤ c && c ≤ 'f' then some (c.toNat - 87)
  else if 'A' ≤ c && c ≤ 'F' then some (c.toNat - 55)
  else none

/-- The four hexadecimal digits of an escape. They take four bytes of the text whatever these are, so a
text with fewer left ends inside the string. -/
def readHex (text : List Char) : Except Fault (Nat × List Char) :=
  if byteLength text < 4 then .error (.before .eofString [])
  else
    match text with
    | a :: b :: c :: d :: rest =>
      match hexValue? a, hexValue? b, hexValue? c, hexValue? d with
      | some a, some b, some c, some d => .ok (((a * 16 + b) * 16 + c) * 16 + d, rest)
      | _, _, _, _ => .error (.within .invalidEscape text 4)
    | _ => .error (.within .invalidEscape text 4)

theorem readHex_length {text rest : List Char} {n : Nat} (h : readHex text = .ok (n, rest)) :
    rest.length < text.length := by
  unfold readHex at h
  split at h
  · simp at h
  · split at h
    · split at h
      · simp at h; simp [← h.2]; omega
      · simp at h
    · simp at h

def isLeading (n : Nat) : Bool := 0xD800 ≤ n && n ≤ 0xDBFF

def isTrailing (n : Nat) : Bool := 0xDC00 ≤ n && n ≤ 0xDFFF

/-- The character of a `\u` escape, read after the `u`; a surrogate needs its partner in a second escape. -/
def readUnicode (text : List Char) : Except Fault (Char × List Char) :=
  match readHex text with
  | .error fault => .error fault
  | .ok (n, rest) =>
    if isTrailing n then .error (.before .loneSurrogate rest)
    else if isLeading n then
      match rest with
      | [] => .error (.before .eofString [])
      | '\\' :: [] => .error (.before .eofString [])
      | '\\' :: 'u' :: rest' =>
        match readHex rest' with
        | .error fault => .error fault
        | .ok (m, rest'') =>
          if isTrailing m then .ok (Char.ofNat ((n - 0xD800) * 1024 + (m - 0xDC00) + 0x10000), rest'')
          else .error (.before .loneSurrogate rest'')
      | '\\' :: rest' => .error (.next .unfinishedSurrogate rest')
      | _ => .error (.next .unfinishedSurrogate rest)
    else .ok (Char.ofNat n, rest)

/-- The character that a backslash and this letter stand for. -/
def shortEscape? (c : Char) : Option Char :=
  if c = '"' || c = '\\' || c = '/' then some c
  else if c = 'b' then some '\x08'
  else if c = 'f' then some '\x0c'
  else if c = 'n' then some '\n'
  else if c = 'r' then some '\r'
  else if c = 't' then some '\t'
  else none

/-- The character of an escape, read after the backslash. -/
def readEscape (text : List Char) : Except Fault (Char × List Char) :=
  match text with
  | [] => .error (.before .eofString [])
  | c :: rest =>
    match shortEscape? c with
    | some d => .ok (d, rest)
    | none => if c = 'u' then readUnicode rest else .error (.next .invalidEscape text)

theorem readUnicode_length {text rest : List Char} {c : Char}
    (h : readUnicode text = .ok (c, rest)) : rest.length < text.length := by
  unfold readUnicode at h
  split at h
  · simp at h
  · next n rest' hr =>
    have h1 := readHex_length hr
    split at h
    · simp at h
    · split at h
      · split at h
        · simp at h
        · simp at h
        · next rest2 =>
          split at h
          · simp at h
          · next m rest3 hm =>
            have h2 := readHex_length hm
            split at h
            · simp at h; simp only [List.length_cons] at h1; rw [← h.2]; omega
            · simp at h
        · simp at h
        · simp at h
      · simp at h; rw [← h.2]; exact h1

theorem readEscape_length {text rest : List Char} {c : Char}
    (h : readEscape text = .ok (c, rest)) : rest.length < text.length := by
  unfold readEscape at h
  split at h
  · simp at h
  · next d ds =>
    split at h
    · simp at h; simp [h.2]
    · split at h
      · have := readUnicode_length h; simp; omega
      · simp at h

/-- The characters of a string, read after its opening quote. -/
def readChars : Reader (List Char)
  | [] => .error (.before .eofString [])
  | c :: rest =>
    if c = '"' then .ok ([], rest)
    else if c = '\\' then
      match h : readEscape rest with
      | .error fault => .error fault
      | .ok (d, rest') =>
        have : rest'.length < rest.length + 1 := Nat.lt_succ_of_lt (readEscape_length h)
        (readChars rest').map fun (cs, left) => (d :: cs, left)
    else if c.toNat < 0x20 then .error (.before .controlCharacter rest)
    else (readChars rest).map fun (cs, left) => (c :: cs, left)
  termination_by text => text.length

/-- A string, read after its opening quote. -/
def readString : Reader String := fun text =>
  (readChars text).map fun (cs, rest) => (String.ofList cs, rest)

end RouteBook.Json
