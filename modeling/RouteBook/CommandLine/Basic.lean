import RouteBook.Text.Bytes
import RouteBook.Text.Integer
import RouteBook.Text.Similar

/-! Command lines of options. Every option takes one value; besides there are the flags for help and version.
What an option's value may be is part of the option. Arguments are byte strings, as the system hands them over; only
names of flags and some values have to be texts. -/

namespace RouteBook.CommandLine

/-- What values an option takes. -/
inductive Values where
  /-- A path, which is not empty. -/
  | path
  | text
  /-- One of some words, each with what it stands for. -/
  | choice (words : List (String × String))
  /-- A port number. -/
  | port
  deriving DecidableEq

structure Flag where
  long : String
  short : Option Char := none
  values : Values
  /-- The variable that gives the value when the command line does not. -/
  standIn? : Option String := none
  default? : Option String := none
  help : String
  deriving DecidableEq

namespace Flag

/-- The name of the value in usage texts. -/
def valueName (flag : Flag) : String := flag.long.map Char.toUpper

/-- The flag with its value, as usage texts and messages name it. -/
def usage (flag : Flag) : String := "--" ++ flag.long ++ " <" ++ flag.valueName ++ ">"

/-- The words that the value may be, if they are limited. -/
def words (flag : Flag) : List String :=
  match flag.values with
  | .choice words => words.map Prod.fst
  | _ => []

end Flag

/-- The flag for help or for the version, as a flag without a text of its own. -/
def common (name : String) : Flag := { long := name, values := .text, help := "" }

structure Command where
  name : String
  version : String
  about : String
  flags : List Flag

/-- Arguments that are given as texts. -/
instance : Coe (List String) (List Bytes) := ⟨List.map utf8⟩

/-- The value of each variable that is set. -/
abbrev Environment := List (String × Bytes)

/-- The text of a variable; one that is not a text counts as not set. -/
def Environment.text? (environment : Environment) (name : String) : Option String :=
  (environment.lookup name).bind utf8?

/-- Why a command line is not run. Asking for help or for the version is one of the reasons. -/
inductive Refusal where
  | help (detailed : Bool)
  | version
  /-- `similar` is the flag that was probably meant, `used` are the flags given before. -/
  | unknown (argument : String) (similar : Option Flag) (used : List Flag)
  /-- A value for one of the flags for help and version. -/
  | unneeded (flag value : String) (used : List Flag)
  | repeated (flag : Flag)
  | missing (flag : Flag)
  | notChoice (flag : Flag) (value : String)
  | invalid (flag : Flag) (value reason : String)
  | notText
  deriving DecidableEq

namespace Command

def find? (command : Command) (long : String) : Option Flag := command.flags.find? (·.long = long)

def findShort? (command : Command) (short : Char) : Option Flag := command.flags.find? (·.short = some short)

end Command

/-- Checks that a value is one a flag takes. -/
def check (flag : Flag) (value : Bytes) : Except Refusal Unit :=
  match flag.values with
  | .path => if value = [] then .error (.missing flag) else .ok ()
  | .text => if (utf8? value).isSome then .ok () else .error .notText
  | .choice _ =>
    match utf8? value with
    | none => .error (.notChoice flag (lossy value))
    | some word =>
      if word = "" then .error (.missing flag)
      else if word ∈ flag.words then .ok ()
      else .error (.notChoice flag word)
  | .port =>
    match utf8? value with
    | none => .error .notText
    | some word =>
      match Text.readInt64 word.toList with
      | .error fault => .error (.invalid flag word fault.message)
      | .ok n =>
        if 0 ≤ n && n ≤ 65535 then .ok ()
        else .error (.invalid flag word (toString n ++ " is not in 0..=65535"))

end RouteBook.CommandLine
