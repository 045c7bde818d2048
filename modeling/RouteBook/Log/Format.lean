import RouteBook.CommandLine.Basic
import RouteBook.Text.Quoted

/-! How and where a program logs. -/

namespace RouteBook.Log

open CommandLine (Environment)

inductive Format where
  | json
  | pretty
  deriving DecidableEq, Repr

namespace Format

def parse? (text : String) : Option Format :=
  if text = "json" then some .json else if text = "pretty" then some .pretty else none

/-- A format by its name; an unknown name means the pretty format, with a warning. -/
def parse (text : String) : Format × List String :=
  match parse? text with
  | some format => (format, [])
  | none => (.pretty, ["WARNING: unknown LOG_FORMAT=" ++ Text.quoted text ++ ", falling back to pretty"])

/-- The format that the environment asks for. -/
def ofEnvironment (environment : Environment) : Format × List String :=
  match environment.text? "LOG_FORMAT" with
  | some text => parse text
  | none => (.pretty, [])

end Format

inductive Writer where
  | stdout
  | stderr
  deriving DecidableEq, Repr

structure Settings where
  service : String
  format : Format
  writer : Writer := .stdout
  deriving DecidableEq, Repr

def Settings.toStderr (settings : Settings) : Settings := { settings with writer := .stderr }

end RouteBook.Log
