import RouteBook.FileTree.Files
import RouteBook.Generator.Error
import RouteBook.Json.Record
import RouteBook.Log.Event

/-! What a run is asked to do. Each setting comes from the arguments, which include the environment, else from
the configuration file, else from a default, independently of the others. -/

namespace RouteBook.Generator

inductive Format where
  | markdown
  | openapi
  deriving DecidableEq, Repr

def Format.name : Format → String
  | .markdown => "Markdown"
  | .openapi => "Openapi"

/-- Formats by the words that choose them. -/
def formatWords : List (String × Format) := [("markdown", .markdown), ("openapi", .openapi)]

def configFile : String := "autodocs.config.json"

def defaultName : String := "sampleapi"

/-- The arguments of a run. -/
structure Arguments where
  file : Option Path := none
  format : Option Format := none
  output : Option Path := none
  name : Option String := none
  config : Path := utf8 configFile
  deriving DecidableEq, Repr

/-- The contents of a configuration file. -/
structure Config where
  file : Option Path := none
  format : Option Format := none
  output : Option Path := none
  name : Option String := none
  deriving DecidableEq, Repr

namespace Config

open Json (Reader)

def pathField (name : String) (store : Config → Option Path → Config) : Reader.Field Config where
  name := name
  required := false
  read := fun config text => (Reader.optional (Reader.string "path string") text).map fun (value, rest) =>
    (store config (value.map utf8), rest)

def fields : List (Reader.Field Config) :=
  [pathField "file" fun config file => { config with file := file },
   { name := "format"
     required := false
     read := fun config text => (Reader.optional (Reader.choice formatWords) text).map fun (format, rest) =>
      ({ config with format := format }, rest) },
   pathField "output" fun config output => { config with output := output },
   { name := "name"
     required := false
     read := fun config text => (Reader.optional (Reader.string "a string") text).map fun (name, rest) =>
      ({ config with name := name }, rest) }]

def parse (text : String) : Except Json.Fault Config :=
  Reader.run (Reader.record "FileConfig" fields {}) text

/-- The configuration in a file; a missing file is an empty one. -/
def load (tree : FileTree) (path : Path) : Except Error Config × List Log.Event :=
  match tree.readText path with
  | .ok text =>
    match parse text with
    | .ok config => (.ok config, [])
    | .error fault => (.error (.config path ⟨text, fault⟩), [])
  | .error e =>
    if e.isNotFound then
      (.ok {},
        [{ level := .debug
           target := "sampleapi_api::docs_cli"
           message := "設定ファイルが無いため既定値を使います"
           fields := [("path", .text (lossy path))]
           spans := [] }])
    else (.error (.io path e), [])

end Config

structure Options where
  input : Option Path
  format : Format
  output : Option Path
  name : String
  deriving DecidableEq, Repr

namespace Options

def resolve (arguments : Arguments) (config : Config) : Options where
  input := arguments.file.or config.file
  format := (arguments.format.or config.format).getD .markdown
  output := arguments.output.or config.output
  name := (arguments.name.or config.name).getD defaultName

def optionalPath : Option Path → String
  | some path => "Some(" ++ Text.quotedPath path ++ ")"
  | none => "None"

/-- The options as a record, the way logs show them. -/
def record (options : Options) : String :=
  String.join ["GenerateOptions \x7b input: ", optionalPath options.input, ", format: ", options.format.name,
    ", output: ", optionalPath options.output, ", name: ", Text.quoted options.name, " \x7d"]

end Options
end RouteBook.Generator
