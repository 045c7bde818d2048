import RouteBook.FileTree.Basic
import RouteBook.FileTree.IoError

/-! Where a path leads. Every step but the last needs a directory to stand in; symbolic links are followed,
at most 40 of them for one path. -/

namespace RouteBook

/-- The end of a path: something that exists, or a free name in an existing directory. `slash` tells that the
path ended in a slash, so that a directory is meant. -/
inductive Place where
  | at (loc : Location) (slash : Bool)
  | free (dir : Location) (name : Name) (slash : Bool)
  deriving DecidableEq, Repr

namespace FileTree

/-- The longest name in bytes. -/
def nameLimit : Nat := 255

/-- The length at which a path is too long. -/
def pathLimit : Nat := 4096

/-- How many symbolic links one path may lead through. -/
def linkLimit : Nat := 40

/-- Takes steps from a location. With `follow` a link at the end is followed too. Steps with an empty name
stand for slashes at the end of a path or of a link's target. -/
def walk (tree : FileTree) (follow : Bool) : Nat → Location → List Name → Except Errno Place
  | _, loc, [] => .ok (.at loc false)
  | links, loc, name :: rest =>
    if name = [] && rest.all List.isEmpty then .ok (.at loc true)
    else if tree.get? loc ≠ some .dir then .error .notDirectory
    else if name = [] || name = Path.here then walk tree follow links loc rest
    else if name = Path.above then walk tree follow links loc.dropLast rest
    else if nameLimit < name.length then .error .nameTooLong
    else
      match tree.get? (loc ++ [name]) with
      | none => if rest.all List.isEmpty then .ok (.free loc name (!rest.isEmpty)) else .error .noEntry
      | some (.link target) =>
        if !follow && rest.all List.isEmpty then .ok (.at (loc ++ [name]) (!rest.isEmpty))
        else
          match links with
          | 0 => .error .linkLoop
          | links + 1 => walk tree follow links (if target.isAbsolute then [] else loc) (target.steps ++ rest)
      | some _ => walk tree follow links (loc ++ [name]) rest
  termination_by links _ steps => (links, steps.length)

/-- The place a path leads to. -/
def place (tree : FileTree) (follow : Bool) (path : Path) : Except IoError Place :=
  if path.contains 0 then .error .zeroByte
  else if path = [] then .error (.os .noEntry)
  else if pathLimit ≤ path.length then .error (.os .nameTooLong)
  else (tree.walk follow linkLimit (if path.isAbsolute then [] else tree.cwd) path.steps).mapError .os

/-- The location of what a path leads to. -/
def locate (tree : FileTree) (path : Path) : Except IoError Location := do
  match ← tree.place true path with
  | .at loc slash => if slash && tree.get? loc ≠ some .dir then .error (.os .notDirectory) else .ok loc
  | .free .. => .error (.os .noEntry)

end FileTree
end RouteBook
