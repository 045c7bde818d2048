import RouteBook.FileTree.IoError
import RouteBook.FileTree.Path
import RouteBook.Json.Fault

/-! Why no documents could be generated. A JSON text that could not be read is kept with its fault, since the
place of the fault is told by line and column. -/

namespace RouteBook.Generator

/-- A fault in a JSON text. -/
structure BadText where
  text : String
  fault : Json.Fault
  deriving DecidableEq

inductive Error where
  /-- Reading an input, making the output directory or writing a file failed. -/
  | io (path : Path) (cause : IoError)
  | yaml (reason : String)
  | sample (cause : BadText)
  | layout
  /-- The configuration file is not what it should be. -/
  | config (path : Path) (cause : BadText)
  /-- An input is not an OpenAPI document. -/
  | input (path : Path) (cause : BadText)
  /-- There is no input under the path. -/
  | noInput (path : Path)
  deriving DecidableEq

namespace Error

def message : Error → String
  | .io path _ => "ファイルの入出力に失敗しました: " ++ lossy path
  | .yaml reason => "OpenAPI YAML の生成に失敗しました: " ++ reason
  | .sample _ => "レスポンス例の整形に失敗しました"
  | .layout => "Markdown の組み立てに失敗しました"
  | .config path _ => "設定ファイルを解析できません: " ++ lossy path
  | .input path _ => "OpenAPI ドキュメントを解析できません: " ++ lossy path
  | .noInput path => "入力に OpenAPI ドキュメントがありません: " ++ lossy path

/-- The text of what lies behind the error. -/
def cause? : Error → Option String
  | .io _ cause => some cause.message
  | .layout => some "an error occurred when formatting an argument"
  | .sample cause | .config _ cause | .input _ cause => some (cause.fault.message cause.text)
  | .yaml _ | .noInput _ => none

end Error

/-- The three things that can go wrong on the way to a document. -/
inductive Stage where
  | configuring
  | loading
  | writing
  deriving DecidableEq, Repr

def Stage.message : Stage → String
  | .configuring => "設定ファイルの読み込みに失敗しました"
  | .loading => "OpenAPI ドキュメントの読み込みに失敗しました"
  | .writing => "ドキュメントの書き出しに失敗しました"

/-- How a run fails: at a stage with an error, or because the standard output takes no more. -/
inductive Failure where
  | at (stage : Stage) (error : Error)
  | output (cause : IoError)
  deriving DecidableEq

namespace Failure

def message : Failure → String
  | .at stage _ => stage.message
  | .output cause => cause.message

/-- The texts of the causes, outermost first. -/
def causes : Failure → List String
  | .at _ error => error.message :: error.cause?.toList
  | .output _ => []

end Failure
end RouteBook.Generator
