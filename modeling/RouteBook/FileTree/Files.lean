import RouteBook.FileTree.Resolve

/-! Reading and changing a file tree by paths. An operation that can fail half-way gives the tree it left
beside its outcome; making a directory with those around it is the only one. A file is written as a whole or not at all: a
write that stops half-way, on a full disk say, is outside the model, and so is a refusal for want of a permission. -/

namespace RouteBook.FileTree

/-- The bytes of a file. -/
def readFile (tree : FileTree) (path : Path) : Except IoError Bytes := do
  let loc ← tree.locate path
  match tree.get? loc with
  | some (.file content) => .ok content
  | some _ => .error (.os .isDirectory)
  | none => .error (.os .noEntry)

/-- The text of a file. -/
def readText (tree : FileTree) (path : Path) : Except IoError String := do
  match utf8? (← tree.readFile path) with
  | some text => .ok text
  | none => .error .notText

/-- A path leads to a directory. -/
def isDir (tree : FileTree) (path : Path) : Bool :=
  match tree.locate path with
  | .ok loc => tree.get? loc = some .dir
  | .error _ => false

/-- The names in a directory with what they stand for, in the order they are reported. -/
def readDir (tree : FileTree) (path : Path) : Except IoError (List (Name × Entry)) := do
  let loc ← tree.locate path
  if tree.get? loc = some .dir then .ok (tree.children loc) else .error (.os .notDirectory)

/-- Makes one directory. -/
def makeDir (tree : FileTree) (path : Path) : Except IoError FileTree := do
  match ← tree.place false path with
  | .at .. => .error (.os .taken)
  | .free dir name _ => .ok (tree.put (dir ++ [name]) .dir)

/-- The outcome of a failed attempt to make a directory: a directory that is already there will do. -/
def orDir (tree : FileTree) (path : Path) (e : IoError) : Except IoError Unit :=
  if tree.isDir path then .ok () else .error e

/-- Makes the first of some directories, the rest of which lie around it and are made first if need be. -/
def makeDirsFrom (tree : FileTree) : List Path → FileTree × Except IoError Unit
  | [] => (tree, .ok ())
  | path :: outer =>
    match tree.makeDir path with
    | .ok made => (made, .ok ())
    | .error e =>
      if e.isNotFound then
        match makeDirsFrom tree outer with
        | (around, .error e') => (around, .error e')
        | (around, .ok ()) =>
          match around.makeDir path with
          | .ok made => (made, .ok ())
          | .error e' => (around, around.orDir path e')
      else (tree, tree.orDir path e)

/-- Makes a directory and the directories around it. -/
def makeDirs (tree : FileTree) (path : Path) : FileTree × Except IoError Unit := makeDirsFrom tree path.ancestors

/-- Writes a whole file, made new if there is none. -/
def writeFile (tree : FileTree) (path : Path) (content : Bytes) : Except IoError FileTree := do
  match ← tree.place true path with
  | .at loc slash =>
    if slash || tree.get? loc = some .dir then .error (.os .isDirectory) else .ok (tree.put loc (.file content))
  | .free dir name slash =>
    if slash then .error (.os .isDirectory) else .ok (tree.put (dir ++ [name]) (.file content))

/-- Makes a symbolic link. -/
def makeLink (tree : FileTree) (path target : Path) : Except IoError FileTree := do
  if target.contains 0 then .error .zeroByte
  if target = [] then .error (.os .noEntry)
  match ← tree.place false path with
  | .at .. => .error (.os .taken)
  | .free dir name slash =>
    if slash then .error (.os .noEntry) else .ok (tree.put (dir ++ [name]) (.link target))

/-- Removes a file, a link, or a directory with all that is in it. -/
def remove (tree : FileTree) (path : Path) : Except IoError FileTree := do
  match ← tree.place false path with
  | .at loc _ => .ok (tree.erase loc)
  | .free .. => .error (.os .noEntry)

/-- Locations in the order of a depth-first walk that takes names in byte order. -/
def locationLe : Location → Location → Bool
  | [], _ => true
  | _ :: _, [] => false
  | a :: as, b :: bs => if a = b then locationLe as bs else bytesLe a b

/-- All that is below a directory, depth first and in byte order, by the names that lead there. -/
def listing (tree : FileTree) (path : Path) : Except IoError (List (Location × Entry)) := do
  let loc ← tree.locate path
  let below := tree.entries.filterMap fun (l, e) => (Text.after? loc l).map fun names => (names, e)
  .ok ((below.filter (·.1 ≠ [])).mergeSort fun a b => locationLe a.1 b.1)

end RouteBook.FileTree
