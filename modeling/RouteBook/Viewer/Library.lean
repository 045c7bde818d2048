import RouteBook.FileTree.Files
import RouteBook.Http.Query
import RouteBook.Service.Tracing
import RouteBook.Viewer.Page

/-! The document viewer: a list of the Markdown files of a directory, and a page for each of them. -/

namespace RouteBook.Viewer

open Http (Request Response Handler Endpoint)
open Log (Event)

/-- Why a document cannot be shown. -/
inductive ViewError where
  /-- There is no such document, or its name is not one. -/
  | notFound
  | io (path : Path) (cause : IoError)
  deriving DecidableEq, Repr

/-- The answer's text where there is no such document. -/
def notFoundText : String := "File not found."

namespace ViewError

def message : ViewError → String
  | .notFound => "ドキュメントが見つかりません"
  | .io path _ => "ドキュメントの読み込みに失敗しました: " ++ lossy path

def cause? : ViewError → Option IoError
  | .notFound => none
  | .io _ cause => some cause

/-- The failure as a record, the way logs show it. -/
def record : ViewError → String
  | .notFound => "NotFound"
  | .io path cause =>
    String.join ["Io \x7b path: ", Text.quotedPath path, ", source: ", cause.record, " \x7d"]

/-- The answer to a failure. Only a failure to read is logged. -/
def respond (e : ViewError) : Response × List Event :=
  match e with
  | .notFound => (.plain 404 notFoundText, [])
  | .io .. =>
    (.plain 500 "Internal Server Error",
      [{ level := .error
         target := "sampleapi_api::error"
         message := "ドキュメントの読み込みに失敗しました"
         fields := [("error", .text e.record)]
         spans := [] }])

end ViewError

def markdownSuffix : List Char := ".md".toList

/-- A plain file name that ends in `.md`. -/
def isDocumentName (name : String) : Bool :=
  (match Path.components (utf8 name) with
    | [.normal _] => true
    | _ => false) &&
    !name.toList.contains '\\' && markdownSuffix.isSuffixOf name.toList

/-- The document names of a directory in byte order. A missing directory has none. -/
def documentNames (tree : FileTree) (dir : Path) : Except ViewError (List String) × List Event :=
  match tree.readDir dir with
  | .error e =>
    if e.isNotFound then
      (.ok [],
        [{ level := .warn
           target := "sampleapi_api::viewer"
           message := "ドキュメントディレクトリがありません"
           fields := [("dir", .text (lossy dir))]
           spans := [] }])
    else (.error (.io dir e), [])
  | .ok entries =>
    let names := entries.filterMap fun (name, entry) =>
      match entry with
      | .file _ => if isDocumentName (lossy name) then some (lossy name) else none
      | _ => none
    (.ok (names.mergeSort fun a b => bytesLe (utf8 a) (utf8 b)), [])

/-- The page that lists the documents of a directory. -/
def list (tree : FileTree) (dir : Path) : Handler := fun _ =>
  match documentNames tree dir with
  | (.ok names, log) => (.html (indexPage names), log)
  | (.error e, log) =>
    let (response, more) := e.respond
    (response, log ++ more)

/-- The document a query asks for; a query may name one document only. -/
def requested (request : Request) : Except Response (Option String) :=
  let query := utf8 (String.ofList (request.uri.query.getD []))
  match (Http.formPairs query).filter (·.1 = "file") with
  | [] => .ok none
  | [(_, name)] => .ok (some name)
  | _ => .error (.plain 400 "Failed to deserialize query string: duplicate field \x60file\x60")

/-- The page of a document in a directory. -/
def page (tree : FileTree) (dir : Path) (name : Option String) : Except ViewError String :=
  match name.filter isDocumentName with
  | none => .error .notFound
  | some file =>
    let path := dir.join (utf8 file)
    match tree.readText path with
    | .ok markdown => .ok (documentPage file markdown)
    | .error e => if e.isNotFound then .error .notFound else .error (.io path e)

/-- The page of the document that a query asks for. -/
def view (tree : FileTree) (dir : Path) : Handler := fun request =>
  match requested request with
  | .error refusal => (refusal, [])
  | .ok name =>
    match page tree dir name with
    | .ok text => (.html text, [])
    | .error e => e.respond

def endpoints (tree : FileTree) (dir : Path) : List Endpoint :=
  [{ path := "/", method := "GET", handler := list tree dir },
   { path := "/view", method := "GET", handler := view tree dir }]

/-- The viewer of a directory. -/
def viewer (tree : FileTree) (dir : Path) : Handler :=
  Service.traced (Service.summed (Http.route (endpoints tree dir)))

end RouteBook.Viewer
