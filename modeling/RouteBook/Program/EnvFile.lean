import RouteBook.CommandLine.Basic
import RouteBook.Text.Blank
import RouteBook.Text.Search

/-! Files of variables: one assignment on a line, with quotes, escapes, comments and references to other
variables. A quoted value may go over several lines. Reading stops at the first line that is not right. -/

namespace RouteBook.Program.EnvFile

open CommandLine (Environment)

/-- Where in a line the reading stands. -/
inductive LineState where
  | plain
  | escape
  | single
  | singleEscape
  | double
  | doubleEscape
  | blank
  deriving DecidableEq

/-- What a character does outside quotes. -/
def outside (c : Char) : LineState :=
  if c = '\\' then .escape else if c = '"' then .double else if c = '\x27' then .single else .plain

def LineState.next (state : LineState) (c : Char) : LineState :=
  match state with
  | .blank => outside c
  | .escape => .plain
  | .plain => if Text.isBlank c && c ≠ '\n' && c ≠ '\r' then .blank else outside c
  | .double => if c = '\\' then .doubleEscape else if c = '"' then .plain else .double
  | .doubleEscape => .double
  | .single => if c = '\\' then .singleEscape else if c = '\x27' then .plain else .single
  | .singleEscape => .single

/-- The next line and what follows it: up to a line break outside quotes, or up to a comment, which goes to
the end of its line. Nothing when the text ends inside a value. `front` is the line so far in reverse, and
`fresh` tells that a physical line starts here. -/
def takeLine : LineState → Bool → List Char → List Char → Option (List Char × List Char)
  | state, _, front, [] => if state = .plain then some (front.reverse, []) else none
  | state, fresh, front, c :: rest =>
    if fresh && (Text.trimLeft (front.reverse ++ (c :: rest).takeWhile (· ≠ '\n'))).head? = some '#' then
      some ([], ((c :: rest).dropWhile (· ≠ '\n')).drop 1)
    else if state = .blank && c = '#' then some (front.reverse, ((c :: rest).dropWhile (· ≠ '\n')).drop 1)
    else
      let next := state.next c
      if c = '\n' then
        if next = .plain then
          some ((match front with | '\r' :: more => more | _ => front).reverse, rest)
        else takeLine next true (c :: front) rest
      else takeLine next false (c :: front) rest

/-- How a reference to a variable is being read. -/
inductive Reference where
  | none
  /-- A name after the dollar sign, in reverse. -/
  | bare (name : List Char)
  /-- A name in braces, in reverse. -/
  | braced (name : List Char)

structure ValueState where
  single : Bool := false
  double : Bool := false
  escape : Bool := false
  ended : Bool := false
  reference : Reference := .none
  /-- The value so far, in reverse. -/
  output : List Char := []

def isNameChar (c : Char) : Bool := c.isAlphanum || 127 < c.toNat

/-- The value of the variable that a reference names; an unknown name gives nothing. -/
def resolve (lookup : String → Option String) (name output : List Char) : List Char :=
  ((lookup (String.ofList name.reverse)).getD "").toList.reverse ++ output

/-- The value at its end, unless a quote or a brace is open. -/
def ValueState.finish (lookup : String → Option String) (state : ValueState) : Option String :=
  if state.single || state.double then none
  else
    match state.reference with
    | .braced _ => none
    | .bare name => some (String.ofList (resolve lookup name state.output).reverse)
    | .none => some (String.ofList state.output.reverse)

/-- Reads the next character of a value that goes on; nothing when the value is not right. -/
def ValueState.next (lookup : String → Option String) (state : ValueState) (c : Char) : Option ValueState :=
  if state.ended then if c = ' ' || c = '\t' then some state else none
  else if state.escape then
    if c = 'n' then some { state with escape := false, output := '\n' :: state.output }
    else if "\\'\"$ ".toList.contains c then some { state with escape := false, output := c :: state.output }
    else none
  else if state.single then
    if c = '\x27' then some { state with single := false } else some { state with output := c :: state.output }
  else
    match state.reference with
    | .bare name =>
      if isNameChar c then some { state with reference := .bare (c :: name) }
      else if c = '{' && name = [] then some { state with reference := .braced [] }
      else
        let output := resolve lookup name state.output
        if c = '$' then some { state with reference := .bare [], output := output }
        else some { state with reference := .none, output := c :: output }
    | .braced name =>
      if c = '}' then some { state with reference := .none, output := resolve lookup name state.output }
      else some { state with reference := .braced (c :: name) }
    | .none =>
      if c = '$' then some { state with reference := .bare [] }
      else if c = '\\' then some { state with escape := true }
      else if state.double then
        if c = '"' then some { state with double := false } else some { state with output := c :: state.output }
      else if c = '\x27' then some { state with single := true }
      else if c = '"' then some { state with double := true }
      else if c = ' ' || c = '\t' then some { state with ended := true }
      else some { state with output := c :: state.output }

/-- Reads a value up to its end or up to a comment behind it. -/
def readValue (lookup : String → Option String) : ValueState → List Char → Option String
  | state, [] => state.finish lookup
  | state, c :: rest =>
    if state.ended && c = '#' then state.finish lookup
    else (state.next lookup c).bind fun state => readValue lookup state rest

/-- A name at the front of a line. -/
def readKey (text : List Char) : Option (List Char × List Char) :=
  match text with
  | [] => none
  | c :: _ =>
    if c.isAlpha || c = '_' then
      some (text.span fun c => c.isAlphanum || c = '_' || c = '.')
    else none

/-- A line that is nothing, an assignment, or not right. -/
inductive Parsed where
  | nothing
  | assignment (key value : String)
  | wrong

def assign (lookup : String → Option String) (key : List Char) (rest : List Char) : Parsed :=
  match Text.trimLeft rest with
  | '=' :: rest =>
    match Text.trimLeft rest with
    | [] => .assignment (String.ofList key) ""
    | '#' :: _ => .assignment (String.ofList key) ""
    | value =>
      match readValue lookup {} value with
      | some text => .assignment (String.ofList key) text
      | none => .wrong
  | _ => .wrong

/-- An assignment may start with the word `export`, which may also be the name itself. -/
def readLine (lookup : String → Option String) (line : List Char) : Parsed :=
  match Text.trimLeft line with
  | [] => .nothing
  | '#' :: _ => .nothing
  | text =>
    match readKey text with
    | none => .wrong
    | some (key, rest) =>
      match key == "export".toList, Text.trimLeft rest with
      | true, '=' :: more => assign lookup key ('=' :: more)
      | true, more =>
        match readKey more with
        | some (key', rest') => assign lookup key' rest'
        | none => .wrong
      | false, more => assign lookup key more

/-- Adds the assignments of the text to the environment, where a variable that is set stays as it is.
`known` are the values that the text itself has given so far. -/
def extend : Nat → Environment → List (String × String) → List Char → Environment
  | 0, environment, _, _ => environment
  | _, environment, _, [] => environment
  | fuel + 1, environment, known, text =>
    let lookup (name : String) : Option String := (environment.text? name).or (known.lookup name)
    match takeLine .plain true [] text with
    | none => environment
    | some (line, rest) =>
      match readLine lookup line with
      | .nothing => extend fuel environment known rest
      | .wrong => environment
      | .assignment key value =>
        let environment' :=
          if (environment.text? key).isSome then environment else (key, utf8 value) :: environment
        extend fuel environment' ((key, value) :: known) rest

/-- The lines of a file up to the first that is not a text. -/
def readable (content : Bytes) : String :=
  match utf8? content with
  | some text => text
  | none => String.join (((Text.pieces 10 content).map utf8?).takeWhile Option.isSome |>.map fun line => line.getD "" ++ "\n")

/-- The environment with the variables of a file. -/
def load (content : Bytes) (environment : Environment) : Environment :=
  match (readable content).toList with
  | '\uFEFF' :: rest => extend (rest.length + 1) environment [] rest
  | chars => extend (chars.length + 1) environment [] chars

end RouteBook.Program.EnvFile
