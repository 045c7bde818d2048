import RouteBook.Generator.Options
import RouteBook.Routes.Collect
import RouteBook.Service.Description

/-! The documents a run works on: every `*.json` file under the input path, or the service's own document. -/

namespace RouteBook.Generator

open OpenApi (Document)

/-- The extension of input files. -/
def inputExtension : Name := utf8 "json"

/-- A path by itself, if it has the extension of input files. -/
def inputFile (path : Path) : List Path := if path.extension? = some inputExtension then [path] else []

/-- The entries of a directory as paths, in the order of their names. -/
def sortedEntries (path : Path) (entries : List (Name × Entry)) : List Path :=
  ((entries.map Prod.fst).mergeSort bytesLe).map path.join

/-- The input files under a path, going `depth` directories deep. -/
def inputsWithin (tree : FileTree) : Nat → Path → Except Error (List Path)
  | 0, path => .ok (inputFile path)
  | depth + 1, path =>
    if tree.isDir path then
      match tree.readDir path with
      | .error e => .error (.io path e)
      | .ok entries => ((sortedEntries path entries).mapM (inputsWithin tree depth)).map List.flatten
    else .ok (inputFile path)

/-- The input files under a path: the path itself, or those of a directory at any depth, by name. Every
level makes the path longer, and beyond the length limit nothing is a directory. -/
def inputs (tree : FileTree) (path : Path) : Except Error (List Path) :=
  inputsWithin tree FileTree.pathLimit path

/-- The name of the document in a file: the file's name without the extension. -/
def documentName (path : Path) : String := (path.stem?.map lossy).getD defaultName

/-- The document in a file, with its name. -/
def loadDocument (tree : FileTree) (path : Path) : Except Error (String × Document) :=
  match tree.readText path with
  | .error e => .error (.io path e)
  | .ok text =>
    match Document.parse text with
    | .error fault => .error (.input path ⟨text, fault⟩)
    | .ok document => .ok (documentName path, document)

/-- The documents of a run with their names. -/
def documents (tree : FileTree) (options : Options) : Except Error (List (String × Document)) :=
  match options.input with
  | none => .ok [(options.name, Service.document)]
  | some input => do
    let files ← inputs tree input
    if files = [] then .error (.noInput input) else files.mapM (loadDocument tree)

end RouteBook.Generator
