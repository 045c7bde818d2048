import RouteBook.Generator.Inputs

/-! A run of the generator: read the configuration, load every document, then write each of them to a file or
to the standard output. Nothing is written before everything is loaded. -/

namespace RouteBook.Generator

open OpenApi (Document)
open Log (Event)

/-- The text of a document in a format. -/
def render (format : Format) (name : String) (document : Document) : String :=
  match format with
  | .markdown => Routes.markdownFor document name
  | .openapi => document.toYaml

/-- The name of the file for a document. -/
def outputName (format : Format) (name : String) : String :=
  match format with
  | .markdown => name ++ "-docs.md"
  | .openapi => name ++ "-openapi.yaml"

/-- Writes a text into a directory, which is made if need be, and gives the path of the file. -/
def writeOutput (tree : FileTree) (dir : Path) (file text : String) : FileTree × Except Error Path :=
  match tree.makeDirs dir with
  | (made, .error e) => (made, .error (.io dir e))
  | (made, .ok ()) =>
    let path := dir.join (utf8 file)
    match made.writeFile path (utf8 text) with
    | .error e => (made, .error (.io path e))
    | .ok written => (written, .ok path)

/-- What a run leaves behind. -/
structure Report where
  tree : FileTree
  stdout : Bytes
  log : List Event
  /-- The paths of the files that were written. -/
  result : Except Failure (List Path)

/-- The event for a file that was written. -/
def written (path : Path) : Event where
  level := .info
  target := "sampleapi_api::docs_cli"
  message := "API ドキュメントを生成しました"
  fields := [("path", .text (lossy path))]
  spans := []

/-- The event at the start of the work. -/
def started (options : Options) : Event where
  level := .debug
  target := "sampleapi_api::docs_cli"
  message := "ドキュメント生成を開始します"
  fields := [("options", .text options.record)]
  spans := []

/-- Writes documents into a directory one after another, up to the first that cannot be written. -/
def writeAll (format : Format) (dir : Path) (tree : FileTree) : List (String × Document) → Report
  | [] => ⟨tree, [], [], .ok []⟩
  | (name, document) :: rest =>
    match writeOutput tree dir (outputName format name) (render format name document) with
    | (left, .error e) => ⟨left, [], [], .error (.at .writing e)⟩
    | (left, .ok path) =>
      let report := writeAll format dir left rest
      { report with log := written path :: report.log, result := report.result.map (path :: ·) }

/-- Writes a text to a standard output that takes a limited number of bytes, if there is a limit. Gives what was
taken, and what is left of the limit if that is the whole text. -/
def printOutput (limit : Option Nat) (text : Bytes) : Bytes × Except Failure (Option Nat) :=
  match limit with
  | none => (text, .ok none)
  | some room =>
    if text.length ≤ room then (text, .ok (some (room - text.length)))
    else (text.take room, .error (.output .outputFull))

/-- Writes documents to a standard output one after another, up to the first that it does not take. -/
def printAll (format : Format) (limit : Option Nat) (tree : FileTree) : List (String × Document) → Report
  | [] => ⟨tree, [], [], .ok []⟩
  | (name, document) :: rest =>
    match printOutput limit (utf8 (render format name document)) with
    | (taken, .error failure) => ⟨tree, taken, [], .error failure⟩
    | (taken, .ok left) =>
      let report := printAll format left tree rest
      { report with stdout := taken ++ report.stdout }

/-- Runs the generator. -/
def run (tree : FileTree) (arguments : Arguments) (limit : Option Nat) : Report :=
  match Config.load tree arguments.config with
  | (.error e, log) => ⟨tree, [], log, .error (.at .configuring e)⟩
  | (.ok config, log) =>
    let options := Options.resolve arguments config
    let log := log ++ [started options]
    match documents tree options with
    | .error e => ⟨tree, [], log, .error (.at .loading e)⟩
    | .ok found =>
      let report :=
        match options.output with
        | some dir => writeAll options.format dir tree found
        | none => printAll options.format limit tree found
      { report with log := log ++ report.log }

end RouteBook.Generator
