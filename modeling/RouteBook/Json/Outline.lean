import RouteBook.Json.Number
import RouteBook.Json.Scan

/-! What a JSON text says, read as far as it can be read. Members keep their order and repeated keys; where
the text breaks off, the outline ends in the fault. A typed reading walks the outline from the front,
so that of two faults the one that comes first in the text decides. -/

namespace RouteBook.Json

inductive Outline
  | null
  | bool (b : Bool)
  | num (n : Number)
  | str (s : String)
  /-- The tear is the fault met in place of the next comma or the closing bracket. -/
  | seq (items : List Outline) (tear : Option Fault)
  | map (members : List (String × Outline)) (tear : Option Fault)
  /-- No value could be read here. -/
  | torn (fault : Fault)

namespace Outline

/-- The fault at which the reading stopped: it lies at the end of the outline. -/
def fault? : Outline → Option Fault
  | .torn fault => some fault
  | .seq items tear =>
    match tear with
    | some fault => some fault
    | none => lastItemFault? items
  | .map members tear =>
    match tear with
    | some fault => some fault
    | none => lastMemberFault? members
  | _ => none
where
  lastItemFault? : List Outline → Option Fault
    | [] => none
    | [item] => item.fault?
    | _ :: item :: rest => lastItemFault? (item :: rest)
  lastMemberFault? : List (String × Outline) → Option Fault
    | [] => none
    | [(_, item)] => item.fault?
    | _ :: member :: rest => lastMemberFault? (member :: rest)

/-- What was read, and the rest of the text unless the reading ended in a fault. -/
structure Reading (α : Type) where
  value : α
  rest : Option (List Char)

def ofReader (make : α → Outline) (result : Except Fault (α × List Char)) : Reading Outline :=
  match result with
  | .ok (value, rest) => ⟨make value, some rest⟩
  | .error fault => ⟨.torn fault, none⟩

/-- A list of items or members under construction: those read, and the tear behind them if any. -/
abbrev Run (α : Type) := Reading (List α × Option Fault)

def Run.torn (fault : Fault) : Run α := ⟨([], some fault), none⟩

def Run.push (item : α) (run : Run α) : Run α :=
  { run with value := (item :: run.value.1, run.value.2) }

/-- The items of a list after its opening bracket, each read by `value`; `first` holds before the first
one. The text shortens with every item, so its length bounds their number. -/
def readItems (value : List Char → Reading Outline) : Nat → Bool → List Char → Run Outline
  | 0, _, text => .torn (.next .eofList text)
  | fuel + 1, first, text =>
    let item (text : List Char) : Run Outline :=
      let reading := value text
      match reading.rest with
      | none => ⟨([reading.value], none), none⟩
      | some rest => (readItems value fuel false rest).push reading.value
    match skipSpace text with
    | [] => .torn (.next .eofList [])
    | ']' :: rest => ⟨([], none), some rest⟩
    | ',' :: rest =>
      if first then item (',' :: rest)
      else
        match skipSpace rest with
        | [] => .torn (.next .eofValue [])
        | ']' :: rest' => .torn (.next .trailingComma (']' :: rest'))
        | rest' => item rest'
    | rest => if first then item rest else .torn (.next .expectedListEnd rest)

/-- The members of an object after its opening bracket, each value read by `value`. -/
def readMembers (value : List Char → Reading Outline) : Nat → Bool → List Char → Run (String × Outline)
  | 0, _, text => .torn (.next .eofObject text)
  | fuel + 1, first, text =>
    let member (text : List Char) : Run (String × Outline) :=
      match readString text with
      | .error fault => .torn fault
      | .ok (key, rest) =>
        match skipSpace rest with
        | [] => .torn (.next .eofObject [])
        | ':' :: rest' =>
          let reading := value rest'
          match reading.rest with
          | none => ⟨([(key, reading.value)], none), none⟩
          | some rest'' => (readMembers value fuel false rest'').push (key, reading.value)
        | rest' => .torn (.next .expectedColon rest')
    match skipSpace text with
    | [] => .torn (.next .eofObject [])
    | '}' :: rest => ⟨([], none), some rest⟩
    | ',' :: rest =>
      if first then .torn (.next .keyNotString (',' :: rest))
      else
        match skipSpace rest with
        | [] => .torn (.next .eofValue [])
        | '"' :: rest' => member rest'
        | '}' :: rest' => .torn (.next .trailingComma ('}' :: rest'))
        | rest' => .torn (.next .keyNotString rest')
    | '"' :: rest => if first then member rest else .torn (.next .expectedObjectEnd ('"' :: rest))
    | rest => .torn (.next (if first then .keyNotString else .expectedObjectEnd) rest)

/-- A value that may hold brackets nested `levels` deep. -/
def read : (levels : Nat) → List Char → Reading Outline
  | levels, text =>
    match skipSpace text with
    | [] => ⟨.torn (.next .eofValue []), none⟩
    | 'n' :: rest => ofReader (fun _ => .null) (readWord ['u', 'l', 'l'] rest)
    | 't' :: rest => ofReader (fun _ => .bool true) (readWord ['r', 'u', 'e'] rest)
    | 'f' :: rest => ofReader (fun _ => .bool false) (readWord ['a', 'l', 's', 'e'] rest)
    | '-' :: rest => ofReader .num (Number.read true rest)
    | '"' :: rest => ofReader .str (readString rest)
    | '[' :: rest =>
      match levels with
      | 0 => ⟨.torn (.next .tooDeep ('[' :: rest)), none⟩
      | inner + 1 =>
        let run := readItems (read inner) (rest.length + 1) true rest
        ⟨.seq run.value.1 run.value.2, run.rest⟩
    | '{' :: rest =>
      match levels with
      | 0 => ⟨.torn (.next .tooDeep ('{' :: rest)), none⟩
      | inner + 1 =>
        let run := readMembers (read inner) (rest.length + 1) true rest
        ⟨.map run.value.1 run.value.2, run.rest⟩
    | c :: rest =>
      if c.isDigit then ofReader .num (Number.read false (c :: rest))
      else ⟨.torn (.next .expectedValue (c :: rest)), none⟩

/-- Brackets may nest this deep. -/
def maxLevels : Nat := 127

/-- The outline of a text, and the fault of what follows the value, if anything but white space does. -/
def ofText (text : String) : Outline × Option Fault :=
  let reading := read maxLevels text.toList
  match reading.rest with
  | none => (reading.value, none)
  | some rest =>
    match skipSpace rest with
    | [] => (reading.value, none)
    | left => (reading.value, some (.next .trailingCharacters left))

end Outline

end RouteBook.Json
