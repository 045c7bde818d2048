import RouteBook.Json.Outline

/-! Passing over a value that nobody asked for. Its form is checked, but not what it would mean: numbers
of any size pass, so do unpaired surrogates, and brackets may nest without limit. -/

namespace RouteBook.Json.Skip

def digits (text : List Char) : List Char := text.dropWhile Char.isDigit

def exponent (text : List Char) : Except Fault (List Char) :=
  let after :=
    match text with
    | '+' :: rest | '-' :: rest => rest
    | rest => rest
  if after.head?.any Char.isDigit then .ok (digits after) else .error (.next .invalidNumber after)

def afterWhole (text : List Char) : Except Fault (List Char) :=
  match text with
  | '.' :: rest =>
    if rest.head?.any Char.isDigit then
      match digits rest with
      | 'e' :: rest' | 'E' :: rest' => exponent rest'
      | rest' => .ok rest'
    else .error (.next .invalidNumber rest)
  | 'e' :: rest | 'E' :: rest => exponent rest
  | rest => .ok rest

/-- A number, after its minus sign if it has one. -/
def number (text : List Char) : Except Fault (List Char) :=
  match text with
  | '0' :: rest => if rest.head?.any Char.isDigit then .error (.next .invalidNumber rest) else afterWhole rest
  | c :: rest => if c.isDigit then afterWhole (digits rest) else .error (.next .invalidNumber text)
  | [] => .error (.next .invalidNumber [])

/-- An escape, after its backslash. -/
def escape (text : List Char) : Except Fault (List Char) :=
  match text with
  | [] => .error (.before .eofString [])
  | c :: rest =>
    if (shortEscape? c).isSome then .ok rest
    else if c = 'u' then (readHex rest).map Prod.snd
    else .error (.next .invalidEscape text)

/-- A string, after its opening quote. The text shortens with every step, so its length bounds them. -/
def stringWithin : Nat → List Char → Except Fault (List Char)
  | 0, text => .error (.before .eofString text)
  | _, [] => .error (.before .eofString [])
  | fuel + 1, c :: rest =>
    if c = '"' then .ok rest
    else if c = '\\' then do stringWithin fuel (← escape rest)
    else if c.toNat < 0x20 then .error (.before .controlCharacter (c :: rest))
    else stringWithin fuel rest

def string (text : List Char) : Except Fault (List Char) := stringWithin (text.length + 1) text

mutual

def valueWithin : Nat → List Char → Except Fault (List Char)
  | 0, text => .error (.next .eofValue text)
  | fuel + 1, text =>
    match skipSpace text with
    | [] => .error (.next .eofValue [])
    | 'n' :: rest => (readWord ['u', 'l', 'l'] rest).map Prod.snd
    | 't' :: rest => (readWord ['r', 'u', 'e'] rest).map Prod.snd
    | 'f' :: rest => (readWord ['a', 'l', 's', 'e'] rest).map Prod.snd
    | '-' :: rest => number rest
    | '"' :: rest => string rest
    | '[' :: rest => items fuel true rest
    | '{' :: rest => members fuel true rest
    | c :: rest => if c.isDigit then number (c :: rest) else .error (.next .expectedValue (c :: rest))

def items : Nat → Bool → List Char → Except Fault (List Char)
  | 0, _, text => .error (.next .eofList text)
  | fuel + 1, first, text =>
    match skipSpace text with
    | [] => .error (.next .eofList [])
    | ']' :: rest => .ok rest
    | rest =>
      if first then do items fuel false (← valueWithin fuel rest)
      else
        match rest with
        | ',' :: rest' => do items fuel false (← valueWithin fuel rest')
        | _ => .error (.next .expectedListEnd rest)

def members : Nat → Bool → List Char → Except Fault (List Char)
  | 0, _, text => .error (.next .eofObject text)
  | fuel + 1, first, text =>
    match skipSpace text with
    | [] => .error (.next .eofObject [])
    | '}' :: rest => .ok rest
    | rest =>
      if first then member fuel rest
      else
        match rest with
        | ',' :: rest' => member fuel (skipSpace rest')
        | _ => .error (.next .expectedObjectEnd rest)

def member : Nat → List Char → Except Fault (List Char)
  | 0, text => .error (.next .eofObject text)
  | fuel + 1, text =>
    match text with
    | [] => .error (.next .eofObject [])
    | '"' :: rest => do
      match skipSpace (← string rest) with
      | [] => .error (.next .eofObject [])
      | ':' :: rest' => do members fuel false (← valueWithin fuel rest')
      | rest' => .error (.next .expectedColon rest')
    | _ => .error (.next .keyNotString text)

end

/-- Passes over one value; the number of steps is bounded by the length of the text. -/
def value : Reader Unit := fun text => (valueWithin (2 * text.length + 4) text).map fun rest => ((), rest)

end RouteBook.Json.Skip
