import RouteBook.CommandLine.Basic

/-! Reading a command line. A flag that waits for its value is settled when the next flag comes or when the
arguments end; only then its value is checked. Variables stand in for flags that are not given. -/

namespace RouteBook.CommandLine

/-- How far the reading has come. -/
structure Progress where
  /-- The last flag, whose value may still be missing. -/
  waiting : Option (Flag × Option Bytes) := none
  /-- The flags that are settled, with their values, in order. -/
  settled : List (Flag × Bytes) := []

namespace Progress

def used (progress : Progress) : List Flag := progress.settled.map Prod.fst

/-- Takes a flag with its value, once. -/
def take (progress : Progress) (flag : Flag) (value : Bytes) : Except Refusal Progress := do
  if flag ∈ progress.used then .error (.repeated flag)
  check flag value
  .ok { progress with settled := progress.settled ++ [(flag, value)] }

/-- Settles the flag that waits. -/
def settle (progress : Progress) : Except Refusal Progress :=
  match progress.waiting with
  | none => .ok progress
  | some (flag, none) => .error (.missing flag)
  | some (flag, some value) => { progress with waiting := none }.take flag value

/-- The flags that were seen when the reading stops at an argument that is not known. A value that is not
right does not matter then, but a flag that was repeated counts as not given. -/
def seen (progress : Progress) : List Flag :=
  match progress.waiting with
  | some (flag, some _) =>
    if flag ∈ progress.used then progress.used.filter (· ≠ flag) else progress.used ++ [flag]
  | _ => progress.used

/-- A flag with the value that stands in the same argument, if there is one. -/
def give (progress : Progress) (flag : Flag) (attached : Option Bytes) : Except Refusal Progress := do
  let progress ← progress.settle
  match attached with
  | some value => progress.take flag value
  | none => .ok { progress with waiting := some (flag, none) }

end Progress

/-- The flags that every command has. -/
inductive Common where
  | help
  | version
  deriving DecidableEq

def Common.refusal (detailed : Bool) : Common → Refusal
  | .help => .help detailed
  | .version => .version

def commonLong? (name : String) : Option Common :=
  if name = "help" then some .help else if name = "version" then some .version else none

def commonShort? (c : Char) : Option Common :=
  if c = 'h' then some .help else if c = 'V' then some .version else none

/-- The flag that was probably meant by an unknown long name. -/
def meant? (command : Command) (name : String) : Option Flag :=
  (Text.mostSimilar? name (command.flags.map Flag.long ++ ["help", "version"])).map fun long =>
    (command.find? long).getD (common long)

/-- The byte of a dash. -/
def dash : UInt8 := 45

/-- The byte of an equals sign. -/
def equalsSign : UInt8 := 61

/-- What an argument looks like. -/
inductive Shape where
  /-- Two dashes that stand alone. -/
  | dashes
  /-- Two dashes and a name, which may have a value attached. -/
  | long (name : Bytes)
  /-- A dash and short names of flags, or one with a value. -/
  | short (names : Bytes)
  | value

def shape : Bytes → Shape
  | a :: b :: rest =>
    if a ≠ dash then .value
    else if b ≠ dash then .short (b :: rest)
    else if rest = [] then .dashes
    else .long rest
  | _ => .value

/-- An argument that starts with two dashes, without them. A name that is not a text names no flag. -/
def readLong (command : Command) (progress : Progress) (argument : Bytes) : Except Refusal Progress :=
  let front := argument.takeWhile (· ≠ equalsSign)
  let attached := argument.drop front.length
  let value := if attached = [] then none else some (attached.drop 1)
  let name := utf8? front
  match name.bind command.find?, name.bind commonLong? with
  | some flag, _ => progress.give flag value
  | none, some common =>
    match value with
    | some word => .error (.unneeded (lossy front) (lossy word) progress.used)
    | none => do
      let _ ← progress.settle
      .error (common.refusal true)
  | none, none => .error (.unknown ("--" ++ lossy front) (meant? command (lossy front)) progress.seen)

/-- An argument that starts with one dash, without it: the flag for help or for the version, or a flag whose
value may follow at once or after an equals sign. -/
def readShort (command : Command) (progress : Progress) (argument : Bytes) : Except Refusal Progress :=
  match Bytes.firstChar? argument with
  | none => .error (.unknown ("-" ++ lossy argument) none [])
  | some (c, rest) =>
    match command.findShort? c, commonShort? c with
    | some flag, _ =>
      match rest with
      | [] => progress.give flag none
      | b :: value => progress.give flag (some (if b = equalsSign then value else b :: value))
    | none, some common => do
      let _ ← progress.settle
      .error (common.refusal false)
    | none, none => .error (.unknown (String.ofList ['-', c]) none [])

/-- Reads the arguments; nothing may follow two dashes that stand alone. -/
def readAll (command : Command) : Progress → List Bytes → Except Refusal Progress
  | progress, [] => progress.settle
  | progress, argument :: rest =>
    match shape argument with
    | .dashes =>
      match rest with
      | [] => progress.settle
      | next :: _ => .error (.unknown (lossy next) none [])
    | .long name => do readAll command (← readLong command progress name) rest
    | .short names => do readAll command (← readShort command progress names) rest
    | .value =>
      match progress.waiting with
      | some (flag, none) => readAll command { progress with waiting := some (flag, some argument) } rest
      | _ => .error (.unknown (lossy argument) none [])

/-- Takes the values of variables for flags that are not given. -/
def addVariables (environment : Environment) : List Flag → Progress → Except Refusal Progress
  | [], progress => .ok progress
  | flag :: rest, progress =>
    match flag.standIn?.bind (environment.lookup ·) with
    | some value => do
      let progress ← if flag ∈ progress.used then .ok progress else progress.take flag value
      addVariables environment rest progress
    | none => addVariables environment rest progress

/-- The value of each flag of a command line: its own, else its variable's. -/
def parse (command : Command) (environment : Environment) (arguments : List Bytes) :
    Except Refusal (List (Flag × Bytes)) := do
  let progress ← readAll command {} arguments
  let progress ← addVariables environment command.flags progress
  .ok progress.settled

end RouteBook.CommandLine
