import RouteBook.CommandLine.Message
import RouteBook.CommandLine.Parse
import RouteBook.Generator.Options
import RouteBook.Service.Description

/-! The command line of the generator. -/

namespace RouteBook.Generator

open CommandLine (Flag Command Environment Refusal)

def fileFlag : Flag where
  long := "file"
  short := some 'f'
  values := .path
  standIn? := some "API_DOCS_INPUT"
  help := "入力の OpenAPI JSON（ファイルまたはディレクトリ）"

def formatFlag : Flag where
  long := "format"
  values := .choice [("markdown", "ルートごとの Markdown"), ("openapi", "OpenAPI YAML")]
  help := "出力形式（既定: markdown）"

def outputFlag : Flag where
  long := "output"
  short := some 'o'
  values := .path
  standIn? := some "API_DOCS_OUTPUT"
  help := "出力ディレクトリ（省略時は標準出力）"

def nameFlag : Flag where
  long := "name"
  values := .text
  standIn? := some "API_DOCS_NAME"
  help := "ドキュメント名（見出しと出力ファイル名に使う。既定: sampleapi）"

def configFlag : Flag where
  long := "config"
  values := .path
  default? := some configFile
  help := "設定ファイルのパス"

def command : Command where
  name := "generate-api-docs"
  version := Service.version
  about := "SampleAPI の API ドキュメントを生成する"
  flags := [fileFlag, formatFlag, outputFlag, nameFlag, configFlag]

/-- The arguments that a command line gives. -/
def Arguments.parse (environment : Environment) (arguments : List Bytes) : Except Refusal Arguments := do
  let values ← CommandLine.parse command environment arguments
  .ok
    { file := values.lookup fileFlag
      format := ((values.lookup formatFlag).bind utf8?).bind fun word => formatWords.lookup word
      output := values.lookup outputFlag
      name := (values.lookup nameFlag).bind utf8?
      config := (values.lookup configFlag).getD (utf8 configFile) }

end RouteBook.Generator
