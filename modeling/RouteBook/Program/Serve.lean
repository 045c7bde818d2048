import RouteBook.Program.Output
import RouteBook.Viewer.Command

/-! The two servers as programs: they start, serve until a signal comes, and stop. All that they log goes to the
standard output. -/

namespace RouteBook.Program

open CommandLine (Environment)
open Log (Line Event Span)

/-- The signals that stop a server. -/
inductive Signal where
  | terminate
  | interrupt
  deriving DecidableEq, Repr

def Signal.name : Signal → String
  | .terminate => "SIGTERM"
  | .interrupt => "SIGINT"

structure Served where
  exit : Nat
  stdout : List Line
  stderr : List Line
  /-- The server listened, so that requests could be sent to it. -/
  listened : Bool

/-- The span around what a server says about itself. -/
def appSpan (service : String) : Span := { name := "app", fields := [("service", .string service)] }

def received (signal : Signal) : Event where
  level := .info
  target := "sampleapi_api::shutdown"
  message := signal.name ++ " を受信しました。シャットダウンを開始します"
  fields := []
  spans := []

/-- A server that could not be started. -/
def Served.failed (warnings : List Line) (message : String) (causes : List String) : Served :=
  ⟨1, [], warnings ++ failureLines message causes, false⟩

/-- An address as a server reports it, with the port that the system gave. -/
def bound (address : Server.Address) (port : String) : String := address.hostText ++ ":" ++ port

/-- The service as a program; `port` is the port that the system gives. -/
def serveApp (tree : FileTree) (environment : Environment) (signal : Signal) (port : String) : Served :=
  let environment := withEnvFile tree environment
  let logging := Logging.ofEnvironment environment
  let say (message : String) : Event :=
    { level := .info, target := "sampleapi_server", message := message, fields := [], spans := [appSpan "sampleapi"] }
  match Server.Config.ofVariables environment.text? with
  | .error e => .failed logging.warnings "設定の読み込みに失敗しました" [e.message, e.cause]
  | .ok config =>
    match config.address with
    | .error e => .failed logging.warnings e.message [e.cause]
    | .ok address =>
      let events :=
        [say ("SampleAPI サーバーを起動します: " ++ address.text),
         say ("SampleAPI サーバーが起動しました: " ++ bound address port),
         received signal,
         say "SampleAPI サーバーを停止しました"]
      ⟨0, logging.lines events, logging.warnings, true⟩

/-- The viewer as a program; `port` is the port that the system gives. -/
def serveViewer (tree : FileTree) (environment : Environment) (arguments : List Bytes) (signal : Signal)
    (port : String) : Served :=
  let environment := withEnvFile tree environment
  match Viewer.Arguments.parse environment arguments with
  | .error refusal =>
    let lines := textLines (refusal.text Viewer.command environment)
    if refusal.isAnswer then ⟨0, lines, [], false⟩ else ⟨2, [], lines, false⟩
  | .ok arguments =>
    let logging := Logging.ofEnvironment environment
    match arguments.server.address with
    | .error e => .failed logging.warnings e.message [e.cause]
    | .ok address =>
      let started : Event :=
        { level := .info
          target := "docs_viewer"
          message := "ドキュメントビューアが起動しました: http://" ++ bound address port
          fields := [("dir", .text (lossy arguments.dir))]
          spans := [appSpan "docs-viewer"] }
      ⟨0, logging.lines [started, received signal], logging.warnings, true⟩

end RouteBook.Program
