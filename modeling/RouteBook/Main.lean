import RouteBook.Json.Print
import RouteBook.Program.Generate

/-! The generator on the command line. The working directory is read into a file tree, the run is worked out on
that tree, and what the run changed is written back. -/

namespace RouteBook.Program

/-- The variables that the generator looks at. -/
def known : List String := Generator.command.flags.filterMap (·.standIn?) ++ ["LOG_FORMAT", "RUST_LOG"]

/-- The known variables that are set. -/
def readEnvironment : IO CommandLine.Environment :=
  known.filterMapM fun name => return (← IO.getEnv name).map fun value => (name, utf8 value)

/-- A directory's entry with all that is below it. What cannot be read is left out. -/
partial def readEntry (dir : Location) (item : IO.FS.DirEntry) : IO (List (Location × Entry)) := do
  let loc := dir ++ [utf8 item.fileName]
  try
    match (← item.path.symlinkMetadata).type with
    | .dir => return (loc, .dir) :: (← (← item.path.readDir).toList.mapM (readEntry loc)).flatten
    | .symlink => return [(loc, .link (utf8 (← IO.FS.realPath item.path).toString))]
    | .file => return [(loc, .file (← IO.FS.readBinFile item.path).toList)]
    | .other => return []
  catch _ => return []

/-- The tree of the working directory, which stands at its own place below the root. -/
def readTree : IO FileTree := do
  let dir ← IO.currentDir
  let cwd := (Path.pieces (utf8 dir.toString)).filter (· ≠ [])
  let below ← (← dir.readDir).toList.mapM (readEntry cwd)
  let around := (List.range cwd.length).map fun n => (cwd.take (n + 1), Entry.dir)
  return { entries := around ++ below.flatten, cwd := cwd }

/-- Writes the entries that differ from those of an earlier tree. -/
def writeTree (before after : FileTree) : IO Unit :=
  after.entries.forM fun (loc, entry) => do
    let path := "/" ++ lossy (Path.ofComponents (loc.map .normal))
    if before.get? loc ≠ some entry then
      match entry with
      | .dir => IO.FS.createDirAll path
      | .file content => IO.FS.writeBinFile path ⟨content.toArray⟩
      | .link _ => pure ()

def lineText : Log.Line → String
  | .text line => line
  | .object value => value.compact

end RouteBook.Program

open RouteBook Program in
def main (arguments : List String) : IO UInt32 := do
  let tree ← readTree
  let run := generate tree (← readEnvironment) arguments
  writeTree tree run.tree
  (← IO.getStdout).write ⟨run.stdout.toArray⟩
  run.stderr.forM fun line => IO.eprintln (lineText line)
  return run.exit.toUInt32
