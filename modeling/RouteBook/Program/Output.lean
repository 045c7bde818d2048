import RouteBook.FileTree.Files
import RouteBook.Log.Filter
import RouteBook.Log.Line
import RouteBook.Program.EnvFile

/-! What programs put out, and what they do before their work: the variables of the file `.env` are added to
the environment, and the environment says how to log. -/

namespace RouteBook.Program

open CommandLine (Environment)
open Log (Line Event)

/-- The lines of a text that ends with a line break. -/
def textLines (text : String) : List Line :=
  let lines := Text.pieces '\n' text.toList
  (if lines.getLast? = some [] then lines.dropLast else lines).map fun line => .text (String.ofList line)

/-- The lines of a cause: behind a number if there are several causes, and with later lines indented. -/
def causeLines (number : Option Nat) (cause : String) : List Line :=
  let (first, more) :=
    match number with
    | some n => ("    " ++ toString n ++ ": ", "       ")
    | none => ("    ", "    ")
  (Text.pieces '\n' cause.toList).zipIdx.map fun (line, i) =>
    .text ((if i = 0 then first else more) ++ String.ofList line)

/-- How a failed program tells why. -/
def failureLines (message : String) (causes : List String) : List Line :=
  textLines ("Error: " ++ message) ++
    match causes with
    | [] => []
    | [cause] => textLines "\nCaused by:" ++ causeLines none cause
    | causes => textLines "\nCaused by:" ++ causes.zipIdx.flatMap fun (cause, i) => causeLines (some i) cause

/-- The file with variables for the programs of a directory. -/
def envFile : Path := utf8 ".env"

/-- The environment with the variables of the directory's file, if it has one. -/
def withEnvFile (tree : FileTree) (environment : Environment) : Environment :=
  match tree.readFile envFile with
  | .ok content => EnvFile.load content environment
  | .error _ => environment

/-- How a program logs. -/
structure Logging where
  format : Log.Format
  filter : Log.Filter
  /-- What is said about settings that are not understood. -/
  warnings : List Line

def Logging.ofEnvironment (environment : Environment) : Logging :=
  let (format, warnings) := Log.Format.ofEnvironment environment
  { format := format
    filter := .ofSetting (environment.text? "RUST_LOG")
    warnings := warnings.map .text }

/-- The lines of the events that are let through. -/
def Logging.lines (logging : Logging) (events : List Event) : List Line :=
  (events.filter logging.filter.admits).flatMap fun event =>
    match event.line logging.format 0 with
    | .text line => textLines line
    | object => [object]

end RouteBook.Program
