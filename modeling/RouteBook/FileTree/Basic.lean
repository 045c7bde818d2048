import RouteBook.FileTree.Path

/-! A file tree: what stands at each location, and the directory that relative paths start from. Entries
are kept in the order in which a directory's entries are reported, which may be any order.

An entry is a file, a directory or a symbolic link. Owners and permissions are outside the tree: whatever is there can be
read, written and searched. So are hard links: what is written at one location is seen at that location alone. -/

namespace RouteBook

/-- The names on the way from the root. -/
abbrev Location := List Name

inductive Entry where
  | file (content : Bytes)
  | dir
  | link (target : Path)
  deriving DecidableEq, Repr

structure FileTree where
  entries : List (Location × Entry)
  /-- Where relative paths start. -/
  cwd : Location
  deriving DecidableEq, Repr

namespace FileTree

/-- What stands at a location; the root is always a directory. -/
def get? (tree : FileTree) (loc : Location) : Option Entry :=
  if loc = [] then some .dir else tree.entries.lookup loc

/-- The tree with an entry put at a location, in the place of the one that stood there if there was one. -/
def put (tree : FileTree) (loc : Location) (entry : Entry) : FileTree :=
  if (tree.entries.lookup loc).isSome then
    { tree with entries := tree.entries.map fun (l, e) => if l = loc then (l, entry) else (l, e) }
  else { tree with entries := tree.entries ++ [(loc, entry)] }

/-- The tree without a location and all that is below it. -/
def erase (tree : FileTree) (loc : Location) : FileTree :=
  { tree with entries := tree.entries.filter fun (l, _) => !loc.isPrefixOf l }

/-- The names directly in a location with what they stand for, in the order they are reported. -/
def children (tree : FileTree) (loc : Location) : List (Name × Entry) :=
  tree.entries.filterMap fun (l, e) =>
    match Text.after? loc l with
    | some [name] => some (name, e)
    | _ => none

/-- No symbolic links anywhere. -/
def LinkFree (tree : FileTree) : Prop := ∀ item ∈ tree.entries, ∀ target, item.2 ≠ .link target

/-- An empty working directory below the root. -/
def fresh : FileTree := { entries := [([[119]], .dir)], cwd := [[119]] }

end FileTree
end RouteBook
