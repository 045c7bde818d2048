import RouteBook.CommandLine.Message
import RouteBook.CommandLine.Parse
import RouteBook.FileTree.Path
import RouteBook.Server.Config
import RouteBook.Service.Description

/-! The command line of the viewer. -/

namespace RouteBook.Viewer

open CommandLine (Flag Command Environment Refusal)

def dirFlag : Flag where
  long := "dir"
  values := .path
  standIn? := some "API_DOCS_DIR"
  default? := some "output"
  help := "配信する Markdown のディレクトリ"

def hostFlag : Flag where
  long := "host"
  values := .text
  standIn? := some "DOCS_VIEWER_HOST"
  default? := some "127.0.0.1"
  help := "バインドアドレス"

def portFlag : Flag where
  long := "port"
  values := .port
  standIn? := some "DOCS_VIEWER_PORT"
  default? := some "3000"
  help := "ポート番号"

def command : Command where
  name := "docs-viewer"
  version := Service.version
  about := "生成した API ドキュメントをブラウザで閲覧する"
  flags := [dirFlag, hostFlag, portFlag]

structure Arguments where
  dir : Path
  server : Server.Config

/-- The arguments that a command line gives. -/
def Arguments.parse (environment : Environment) (arguments : List Bytes) : Except Refusal Arguments := do
  let values ← CommandLine.parse command environment arguments
  let text (flag : Flag) : String := (((values.lookup flag).bind utf8?).or flag.default?).getD ""
  .ok
    { dir := (values.lookup dirFlag).getD (utf8 (dirFlag.default?.getD ""))
      server :=
        { host := text hostFlag
          port :=
            match Text.readInt64 (text portFlag).toList with
            | .ok n => n.toNat.toUInt16
            | .error _ => 0 } }

end RouteBook.Viewer
