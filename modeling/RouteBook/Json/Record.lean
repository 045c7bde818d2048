import RouteBook.Json.Skip
import RouteBook.Json.Value

/-! Typed reading straight from the text: strings, optional values, choices among names, lists, and records
of named fields. A record is written as an object, in which unknown keys are passed over and a known key
stands at most once, or as an array that gives every field in order. -/

namespace RouteBook.Json.Reader

/-- The fault for a scalar of another kind than the expected one, or the fault in the scalar itself. -/
def mismatchScalar (expected : String) (found : α → Found) : Except Fault (α × List Char) → Fault
  | .ok (value, rest) => .before (.wrongType (found value) expected) rest
  | .error fault => fault

def foundNumber : Number → Found
  | .int value => .integer (String.ofList (Number.int value).write)
  | .float value => .float (String.ofList (Number.float value).write)

/-- The fault for a value of another kind than the expected one: a scalar is read to its end first, a list
or an object is refused at its bracket. -/
def mismatch (expected : String) (text : List Char) : Fault :=
  match text with
  | [] => .next .eofValue []
  | 'n' :: rest => mismatchScalar expected (fun _ => .null) (readWord ['u', 'l', 'l'] rest)
  | 't' :: rest => mismatchScalar expected (fun _ => .bool true) (readWord ['r', 'u', 'e'] rest)
  | 'f' :: rest => mismatchScalar expected (fun _ => .bool false) (readWord ['a', 'l', 's', 'e'] rest)
  | '-' :: rest => mismatchScalar expected foundNumber (Number.read true rest)
  | '"' :: rest => mismatchScalar expected .string (readString rest)
  | '[' :: _ => .before (.wrongType .sequence expected) text
  | '{' :: _ => .before (.wrongType .map expected) text
  | c :: _ =>
    if c.isDigit then mismatchScalar expected foundNumber (Number.read false text)
    else .next .expectedValue text

/-- A string; `expected` describes it in the fault for anything else. -/
def string (expected : String) : Reader String := fun text =>
  match skipSpace text with
  | '"' :: rest => readString rest
  | rest => .error (mismatch expected rest)

/-- A value or `null`. -/
def optional (reader : Reader α) : Reader (Option α) := fun text =>
  match skipSpace text with
  | 'n' :: rest => (readWord ['u', 'l', 'l'] rest).map fun (_, left) => (none, left)
  | rest => (reader rest).map fun (value, left) => (some value, left)

def unit : Reader Unit := fun text =>
  match skipSpace text with
  | 'n' :: rest => readWord ['u', 'l', 'l'] rest
  | rest => .error (mismatch "unit" rest)

/-- One of some names, each standing for a value: as a string, or as the only key of an object whose value
is `null`. -/
def choice (options : List (String × α)) : Reader α := fun text =>
  let named (expected : String) (text : List Char) : Except Fault (α × List Char) := do
    let (name, rest) ← string expected text
    match options.lookup name with
    | some value => .ok (value, rest)
    | none => .error (.before (.unknownVariant name (options.map Prod.fst)) rest)
  match skipSpace text with
  | [] => .error (.next .eofValue [])
  | '"' :: rest => named "variant identifier" ('"' :: rest)
  | '{' :: rest => do
    let (value, rest) ← named "variant identifier" rest
    match skipSpace rest with
    | [] => .error (.next .eofObject [])
    | ':' :: rest => do
      let (_, rest) ← unit rest
      match skipSpace rest with
      | '}' :: rest => .ok (value, rest)
      | [] => .error (.before .eofObject [])
      | rest => .error (.before .expectedValue rest)
    | rest => .error (.next .expectedColon rest)
  | rest => .error (.next .expectedValue rest)

/-- A list of free values inside `levels` further brackets. -/
def values (levels : Nat) : Reader (List Value) := fun text =>
  match skipSpace text with
  | '[' :: _ => do
    let (value, rest) ← Value.read levels text
    match value with
    | .arr items => .ok (items, rest)
    | _ => .ok ([], rest)
  | rest => .error (mismatch "a sequence" rest)

/-- A field of a record `ρ`: how its value is read and stored. -/
structure Field (ρ : Type) where
  name : String
  required : Bool
  read : ρ → Reader ρ

/-- The place of a fault about a whole record: after its closing bracket when that comes next. -/
def afterObject (rest : List Char) : List Char :=
  match skipSpace rest with
  | '}' :: left => left
  | left => left

/-- The members of a record's object; `seen` are the known keys met so far. -/
def readObject (fields : List (Field ρ)) : Nat → Bool → List String → ρ → Reader ρ
  | 0, _, _, _, text => .error (.next .eofObject text)
  | fuel + 1, first, seen, record, text =>
    let member (text : List Char) : Except Fault (ρ × List Char) := do
      let (key, rest) ← readString text
      let colon (rest : List Char) : Except Fault (List Char) :=
        match skipSpace rest with
        | [] => .error (.next .eofObject [])
        | ':' :: rest' => .ok rest'
        | rest' => .error (.next .expectedColon rest')
      match fields.find? (·.name = key) with
      | none => do
        let (_, rest) ← Skip.value (← colon rest)
        readObject fields fuel false seen record rest
      | some field =>
        if key ∈ seen then .error (.before (.duplicateField key) (afterObject rest))
        else do
          let (record, rest) ← field.read record (← colon rest)
          readObject fields fuel false (key :: seen) record rest
    match skipSpace text with
    | [] => .error (.next .eofObject [])
    | '}' :: rest =>
      match fields.find? (fun field => field.required && field.name ∉ seen) with
      | some field => .error (.before (.missingField field.name) rest)
      | none => .ok (record, rest)
    | ',' :: rest =>
      if first then .error (.next .keyNotString (',' :: rest))
      else
        match skipSpace rest with
        | [] => .error (.next .eofValue [])
        | '"' :: rest' => member rest'
        | '}' :: rest' => .error (.next .trailingComma ('}' :: rest'))
        | rest' => .error (.next .keyNotString rest')
    | '"' :: rest => if first then member rest else .error (.next .expectedObjectEnd ('"' :: rest))
    | rest => .error (.next (if first then .keyNotString else .expectedObjectEnd) rest)

/-- The end of a record's array. -/
def closeList (rest : List Char) : Except Fault (List Char) :=
  match skipSpace rest with
  | [] => .error (.next .eofList [])
  | ']' :: left => .ok left
  | ',' :: left =>
    match skipSpace left with
    | ']' :: left' => .error (.next .trailingComma (']' :: left'))
    | left' => .error (.next .trailingCharacters left')
  | left => .error (.next .trailingCharacters left)

/-- The fields of a record's array from number `index` on; `expected` describes the whole array. -/
def readArray (expected : String) : Nat → List (Field ρ) → ρ → Reader ρ
  | _, [], record, text => do .ok (record, ← closeList text)
  | index, field :: fields, record, text =>
    let item (text : List Char) : Except Fault (ρ × List Char) := do
      let (record, rest) ← field.read record text
      readArray expected (index + 1) fields record rest
    match skipSpace text with
    | [] => .error (.next .eofList [])
    | ']' :: rest => .error (.before (.wrongLength index expected) rest)
    | ',' :: rest =>
      if index = 0 then item (',' :: rest)
      else
        match skipSpace rest with
        | [] => .error (.next .eofValue [])
        | ']' :: rest' => .error (.next .trailingComma (']' :: rest'))
        | rest' => item rest'
    | rest => if index = 0 then item rest else .error (.next .expectedListEnd rest)

/-- A record with the given title, starting from `empty`. -/
def record (title : String) (fields : List (Field ρ)) (empty : ρ) : Reader ρ := fun text =>
  let count := fields.length
  let elements := toString count ++ (if count = 1 then " element" else " elements")
  match skipSpace text with
  | '[' :: rest => readArray ("struct " ++ title ++ " with " ++ elements) 0 fields empty rest
  | '{' :: rest => readObject fields (rest.length + 1) true [] empty rest
  | rest => .error (mismatch ("struct " ++ title) rest)

/-- Reads a whole text: one value and nothing but white space behind it. -/
def run (reader : Reader α) (text : String) : Except Fault α := do
  let (value, rest) ← reader text.toList
  Value.readEnd rest
  .ok value

end RouteBook.Json.Reader
