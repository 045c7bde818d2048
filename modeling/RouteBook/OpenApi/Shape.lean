import RouteBook.Json.Value

/-! Shapes of JSON documents, and the reading of an outline in a shape. Reading gives the document in its
standard form: fields in the order of the shape, absent and empty ones left out, unknown ones dropped, and
extension fields (`x-…`) at the end. A shape that has to see the whole value before it can decide lets
the value's own fault come first; otherwise the first fault in the text decides. -/

namespace RouteBook.OpenApi

open Json (Value Outline Fault Number)

/-- Whether a field may be absent, and when it is written. -/
inductive Presence
  | required
  /-- May be absent or `null`, and is then not written. -/
  | optional
  /-- May be absent; not written when absent or empty. -/
  | orEmpty
  /-- May be absent or `null`, and is then written as `null`. -/
  | orNull
  /-- Must stand there; `null` is not written. -/
  | dropNull
  deriving DecidableEq

inductive Shape
  | text
  | flag
  | refusal
  | count
  | limit
  | any
  | keyword (known : List String)
  | version
  | list (item : Shape)
  /-- A map written sorted by key; of a repeated key the last value counts. -/
  | sorted (value : Shape)
  /-- A map written in document order; a repeated key keeps its first place and takes the last value. -/
  | ordered (value : Shape)
  /-- A sorted map whose extension keys are written once more, as free values, at the end. -/
  | entries (value : Shape)
  | object (fields : List (String × Presence × Shape)) (trailing : List (String × Presence × Shape))
  /-- An object told apart by the string under a key, which is written first. -/
  | tagged (key : String) (cases : List (String × Shape))
  /-- The first alternative that fits. -/
  | either (alternatives : List Shape)
  /-- The whole value is read before it is judged. -/
  | whole (shape : Shape)
  | schema

namespace Shape

def wrong : Except Fault α := .error ⟨.wrongShape, 0⟩

def mismatch : Outline → Except Fault α
  | .torn fault => .error fault
  | _ => wrong

def isExtension (key : String) : Bool := "x-".toList.isPrefixOf key.toList

def isEmpty : Value → Bool
  | .str s => s.isEmpty
  | .arr items => items.isEmpty
  | .obj members => members.isEmpty
  | .bool b => !b
  | _ => false

/-- The pieces between full stops that are integers of a signed byte. -/
def versionNumbers (text : String) : List Int :=
  (Text.pieces '.' text.toList).filterMap fun piece =>
    let number (digits : List Char) : Option Nat :=
      if digits ≠ [] && digits.all Char.isDigit then
        some (digits.foldl (fun n c => n * 10 + (c.toNat - 48)) 0)
      else none
    match piece with
    | '-' :: digits => (number digits).bind fun n => if n ≤ 128 then some (-(n : Int)) else none
    | '+' :: digits => (number digits).bind fun n => if n ≤ 127 then some (n : Int) else none
    | digits => (number digits).bind fun n => if n ≤ 127 then some (n : Int) else none

def isVersion (text : String) : Bool :=
  match versionNumbers text with
  | [major, minor, _] => major = 3 && minor = 1
  | _ => false

/-- Puts a member at its first place, or at the end if its key is new. -/
def upsert (key : String) (value : Value) : List (String × Value) → List (String × Value)
  | [] => [(key, value)]
  | (k, v) :: rest => if k = key then (k, value) :: rest else (k, v) :: upsert key value rest

def writeField (given : List (String × Option Value)) (key : String) (presence : Presence) :
    Except Fault (List (String × Value)) :=
  match given.lookup key, presence with
  | some (some value), .orEmpty => .ok (if isEmpty value then [] else [(key, value)])
  | some (some value), _ => .ok [(key, value)]
  | some none, .orNull | none, .orNull => .ok [(key, .null)]
  | none, .required | none, .dropNull => wrong
  | _, _ => .ok []

def writeFields (given : List (String × Option Value)) :
    List (String × Presence × Shape) → Except Fault (List (String × Value))
  | [] => .ok []
  | (key, presence, _) :: rest => do
    .ok ((← writeField given key presence) ++ (← writeFields given rest))

/-- Reads the members of an object: known fields by their shapes, each at most once; of the others the
extensions are kept. -/
def readFields (read : Shape → Outline → Except Fault Value)
    (fields : List (String × Presence × Shape)) :
    List (String × Outline) → List (String × Option Value) → List (String × Value) →
      Except Fault (List (String × Option Value) × List (String × Value))
  | [], given, extensions => .ok (given, extensions)
  | (key, item) :: rest, given, extensions =>
    match fields.lookup key with
    | some (presence, shape) =>
      if (given.lookup key).isSome then wrong
      else
        match presence, item with
        | .optional, .null | .orNull, .null | .dropNull, .null =>
          readFields read fields rest ((key, none) :: given) extensions
        | _, _ => do
          let value ← read shape item
          readFields read fields rest ((key, some value) :: given) extensions
    | none => do
      let value ← Value.ofOutline item
      readFields read fields rest given
        (if isExtension key then Value.insert key value extensions else extensions)

def readMembers (read : Outline → Except Fault Value) (put : String → Value → List (String × Value) →
    List (String × Value)) : List (String × Outline) → List (String × Value) →
      Except Fault (List (String × Value))
  | [], members => .ok members
  | (key, item) :: rest, members => do
    let value ← read item
    readMembers read put rest (put key value members)

def readItems (read : Outline → Except Fault Value) : List Outline → Except Fault (List Value)
  | [] => .ok []
  | item :: rest => do
    let value ← read item
    .ok (value :: (← readItems read rest))

def closed (tear : Option Fault) (value : Value) : Except Fault Value :=
  match tear with
  | some fault => .error fault
  | none => .ok value

def limitOf : Number → Number
  | .int value => .int value
  | .float value =>
    match value.toInt? with
    | some n => if Int64.minValue.toInt ≤ n ∧ n ≤ Int64.maxValue.toInt then .int n else .float value
    | none => .float value

/-- Reads an outline in a shape; `schemas` is what the shape `schema` stands for. The number bounds the
nesting of shapes. -/
def read (schemas : Shape) : Nat → Shape → Outline → Except Fault Value
  | 0, _, _ => wrong
  | fuel + 1, shape, outline =>
    let again := read schemas fuel
    let complete (next : Unit → Except Fault Value) : Except Fault Value :=
      match outline.fault? with
      | some fault => .error fault
      | none => next ()
    match shape with
    | .text =>
      match outline with
      | .str s => .ok (.str s)
      | other => mismatch other
    | .flag =>
      match outline with
      | .bool b => .ok (.bool b)
      | other => mismatch other
    | .refusal =>
      match outline with
      | .bool false => .ok (.bool false)
      | other => mismatch other
    | .count =>
      match outline with
      | .num (.int n) => if 0 ≤ n then .ok (.num (.int n)) else wrong
      | other => mismatch other
    | .limit =>
      match outline with
      | .num n => .ok (.num (limitOf n))
      | other => mismatch other
    | .any => Value.ofOutline outline
    | .keyword known =>
      match outline with
      | .str s => if s ∈ known then .ok (.str s) else wrong
      | other => mismatch other
    | .version =>
      match outline with
      | .str s => if isVersion s then .ok (.str "3.1.0") else wrong
      | other => mismatch other
    | .list item =>
      match outline with
      | .seq items tear => do closed tear (.arr (← readItems (again item) items))
      | other => mismatch other
    | .sorted value =>
      match outline with
      | .map members tear => do closed tear (.obj (← readMembers (again value) Value.insert members []))
      | other => mismatch other
    | .ordered value =>
      match outline with
      | .map members tear => do closed tear (.obj (← readMembers (again value) upsert members []))
      | other => mismatch other
    | .entries value =>
      match outline with
      | .map members _ =>
        complete fun _ => do
          let found ← readMembers (again value) Value.insert members []
          let free ← readMembers Value.ofOutline Value.insert (members.filter (isExtension ·.1)) []
          .ok (.obj (found ++ free))
      | other => mismatch other
    | .object fields trailing =>
      match outline with
      | .map members tear => do
        let (given, extensions) ← readFields again (fields ++ trailing) members [] []
        match tear with
        | some fault => .error fault
        | none => .ok (.obj ((← writeFields given fields) ++ extensions ++ (← writeFields given trailing)))
      | other => mismatch other
    | .tagged key cases =>
      complete fun _ =>
        match outline with
        | .map members _ =>
          match members.lookup key with
          | some (.str tag) =>
            match cases.lookup tag with
            | some inner => do
              match ← again inner outline with
              | .obj written => .ok (.obj ((key, .str tag) :: written))
              | other => .ok other
            | none => wrong
          | _ => wrong
        | _ => wrong
    | .either alternatives =>
      complete fun _ =>
        match alternatives.findSome? (fun alternative => (again alternative outline).toOption) with
        | some value => .ok value
        | none => wrong
    | .whole inner => complete fun _ => again inner outline
    | .schema => again schemas outline

end Shape

end RouteBook.OpenApi
