import RouteBook.Generator.Command
import RouteBook.Generator.Run
import RouteBook.Program.Output

/-! The generator as a program: documents go to the standard output, everything else to the standard error. -/

namespace RouteBook.Program

open CommandLine (Environment)
open Log (Line)

structure Generated where
  exit : Nat
  stdout : Bytes
  stderr : List Line
  tree : FileTree

def generate (tree : FileTree) (environment : Environment) (arguments : List Bytes) : Generated :=
  let environment := withEnvFile tree environment
  match Generator.Arguments.parse environment arguments with
  | .error refusal =>
    let text := refusal.text Generator.command environment
    if refusal.isAnswer then ⟨0, utf8 text, [], tree⟩ else ⟨2, [], textLines text, tree⟩
  | .ok arguments =>
    let logging := Logging.ofEnvironment environment
    let report := Generator.run tree arguments none
    let logged := logging.warnings ++ logging.lines report.log
    match report.result with
    | .ok _ => ⟨0, report.stdout, logged, report.tree⟩
    | .error failure => ⟨1, report.stdout, logged ++ failureLines failure.message failure.causes, report.tree⟩

end RouteBook.Program
