import RouteBook.Json.Value
import RouteBook.Yaml.Scalar

/-! JSON values as YAML in block style: two spaces a level, lists not indented under their key, empty
lists and objects in brackets. A key that spans lines or takes more than 128 bytes is written after a
question mark, and its value then starts right after the colon. -/

namespace RouteBook.Yaml

open Json (Value)

/-- Doubles in YAML: as in JSON, but a positive exponent has no sign. -/
def floatLayout : Decimal.Layout where
  positional point := -5 < point && point ≤ 16
  plus := false

def spaces (n : Nat) : List Char := List.replicate n ' '

/-- Ends the line unless the text already ended in a line break. -/
def endLine (text : List Char) : List Char :=
  if text.getLast?.any isBreak then text else text ++ ['\n']

/-- A value that takes no lines of its own below. -/
def inline? (indent : Nat) : Value → Option (List Char)
  | .null => some "null".toList
  | .bool b => some (if b then "true".toList else "false".toList)
  | .num (.int n) => some (Json.Number.int n).write
  | .num (.float x) => some (floatLayout.write x)
  | .str s => some (writeScalar indent false s.toList)
  | .arr [] => some ['[', ']']
  | .obj [] => some ['{', '}']
  | _ => none

def isSimpleKey (key : String) : Bool :=
  key.utf8ByteSize ≤ 128 && !(analyse key.toList).multiline

mutual

/-- A value after a dash, or after the colon of a long key, at column `indent`. -/
def afterMark (indent : Nat) (value : Value) : List Char :=
  match value with
  | .arr (item :: rest) => ' ' :: writeItems (indent + 2) true (item :: rest)
  | .obj (member :: rest) => ' ' :: writeMembers (indent + 2) true (member :: rest)
  | other => ' ' :: endLine ((inline? (indent + 2) other).getD [])

/-- The items of a list at column `indent`; `started` when the first one continues a line. -/
def writeItems (indent : Nat) (started : Bool) : List Value → List Char
  | [] => []
  | item :: rest =>
    (if started then [] else spaces indent) ++ '-' :: afterMark indent item ++ writeItems indent false rest

/-- The members of an object at column `indent`. -/
def writeMembers (indent : Nat) (started : Bool) : List (String × Value) → List Char
  | [] => []
  | (key, value) :: rest =>
    (if started then [] else spaces indent) ++
      (if isSimpleKey key then
        writeScalar (indent + 2) true key.toList ++ ':' ::
          (match value with
            | .arr (item :: more) => '\n' :: writeItems indent false (item :: more)
            | .obj (member :: more) => '\n' :: writeMembers (indent + 2) false (member :: more)
            | other => ' ' :: endLine ((inline? (indent + 2) other).getD []))
      else
        '?' :: ' ' :: endLine (writeScalar (indent + 2) false key.toList) ++ spaces indent ++
          ':' :: afterMark indent value) ++
      writeMembers indent false rest

end

/-- A value as a YAML document. -/
def print (value : Value) : String :=
  String.ofList <|
    match value with
    | .arr (item :: rest) => writeItems 0 false (item :: rest)
    | .obj (member :: rest) => writeMembers 0 false (member :: rest)
    | other => endLine ((inline? 0 other).getD [])

end RouteBook.Yaml
