import RouteBook.Json.Value

/-! The two written forms of a JSON value: compact, on one line, and pretty, with one item a line and two
spaces a level. Strings escape the quote, the backslash and the controls below U+0020, nothing else. -/

namespace RouteBook.Json

/-- How one character appears in a string. -/
def escape (c : Char) : List Char :=
  if c = '"' then ['\\', '"']
  else if c = '\\' then ['\\', '\\']
  else if c = '\x08' then ['\\', 'b']
  else if c = '\t' then ['\\', 't']
  else if c = '\n' then ['\\', 'n']
  else if c = '\x0c' then ['\\', 'f']
  else if c = '\r' then ['\\', 'r']
  else if c.toNat < 0x20 then ['\\', 'u', '0', '0', Nat.digitChar (c.toNat / 16), Nat.digitChar (c.toNat % 16)]
  else [c]

def quote (s : String) : List Char := '"' :: s.toList.flatMap escape ++ ['"']

namespace Value

mutual

def compactChars : Value → List Char
  | .null => "null".toList
  | .bool b => if b then "true".toList else "false".toList
  | .num n => n.write
  | .str s => quote s
  | .arr items => '[' :: compactItems true items ++ [']']
  | .obj members => '{' :: compactMembers true members ++ ['}']

def compactItems (first : Bool) : List Value → List Char
  | [] => []
  | item :: rest => (if first then [] else [',']) ++ compactChars item ++ compactItems false rest

def compactMembers (first : Bool) : List (String × Value) → List Char
  | [] => []
  | (key, item) :: rest =>
    (if first then [] else [',']) ++ quote key ++ ':' :: compactChars item ++ compactMembers false rest

end

def compact (value : Value) : String := String.ofList value.compactChars

/-- A line break and the indentation of a level. -/
def newline (level : Nat) : List Char := '\n' :: List.replicate (2 * level) ' '

mutual

/-- The pretty form of a value inside `level` brackets. -/
def prettyChars (level : Nat) : Value → List Char
  | .null => "null".toList
  | .bool b => if b then "true".toList else "false".toList
  | .num n => n.write
  | .str s => quote s
  | .arr [] => ['[', ']']
  | .arr (item :: rest) => '[' :: prettyItems (level + 1) true (item :: rest) ++ newline level ++ [']']
  | .obj [] => ['{', '}']
  | .obj (member :: rest) =>
    '{' :: prettyMembers (level + 1) true (member :: rest) ++ newline level ++ ['}']

def prettyItems (level : Nat) (first : Bool) : List Value → List Char
  | [] => []
  | item :: rest =>
    (if first then [] else [',']) ++ newline level ++ prettyChars level item ++ prettyItems level false rest

def prettyMembers (level : Nat) (first : Bool) : List (String × Value) → List Char
  | [] => []
  | (key, item) :: rest =>
    (if first then [] else [',']) ++ newline level ++ quote key ++ ':' :: ' ' :: prettyChars level item ++
      prettyMembers level false rest

end

def pretty (value : Value) : String := String.ofList (value.prettyChars 0)

end Value

end RouteBook.Json
