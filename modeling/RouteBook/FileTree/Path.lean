import RouteBook.Text.Bytes
import RouteBook.Text.Search

/-! File paths as byte strings. A path is read in two ways. `components` is the reading that names things:
repeated slashes, a slash at the end and inner `.` steps do not count. `steps` is the reading that leads
somewhere: every step is taken, and an empty last step marks a slash at the end. -/

namespace RouteBook

abbrev Path := Bytes

/-- A name inside a directory. -/
abbrev Name := Bytes

namespace Path

def slash : UInt8 := 47

def dot : UInt8 := 46

def here : Name := [dot]

def above : Name := [dot, dot]

inductive Component where
  | root
  | current
  | parent
  | normal (name : Name)
  deriving DecidableEq, Repr

def isAbsolute (path : Path) : Bool := path.head? = some slash

/-- The pieces between slashes. -/
def pieces (path : Path) : List Name := Text.pieces slash path

/-- The component a piece stands for; empty pieces and `.` stand for none. -/
def component? (piece : Name) : Option Component :=
  if piece = [] || piece = here then none
  else if piece = above then some .parent
  else some (.normal piece)

def components (path : Path) : List Component :=
  let named := path.pieces.filterMap component?
  if path.isAbsolute then .root :: named
  else if path.pieces.head? = some here then .current :: named
  else named

/-- The last component, if it is a plain name. -/
def fileName? (path : Path) : Option Name :=
  match path.components.getLast? with
  | some (.normal name) => some name
  | _ => none

/-- A file name cut at its last dot; a dot in front does not count. -/
def cutName (name : Name) : Name × Option Name :=
  match name.reverse.span (· ≠ dot) with
  | (_, []) => (name, none)
  | (_, [_]) => (name, none)
  | (tail, _ :: front) => (front.reverse, some tail.reverse)

/-- The file name without its extension. -/
def stem? (path : Path) : Option Name := path.fileName?.map fun name => (cutName name).1

def extension? (path : Path) : Option Name := path.fileName?.bind fun name => (cutName name).2

/-- A path inside a directory; an absolute path stands alone. -/
def join (dir path : Path) : Path :=
  if path.isAbsolute then path
  else if dir = [] || dir.getLast? = some slash then dir ++ path
  else dir ++ slash :: path

/-- The steps a path takes. A slash at the end is one more step, with the empty name. -/
def steps (path : Path) : List Name :=
  path.pieces.filter (· ≠ []) ++ (if path.getLast? = some slash then [[]] else [])

/-- A component as it is written in a path. -/
def Component.text : Component → Name
  | .root => []
  | .current => here
  | .parent => above
  | .normal name => name

/-- The path of a list of components. -/
def ofComponents (parts : List Component) : Path := List.intercalate [slash] (parts.map Component.text)

/-- From components in reverse: their path, then the paths around it. -/
def outward : List Component → List Path
  | [] => []
  | [.root] => []
  | c :: outer => ofComponents (c :: outer).reverse :: outward outer

/-- A path as it is written and the directories around it, innermost first, without the root and without the
working directory. -/
def ancestors (path : Path) : List Path :=
  match outward path.components.reverse with
  | [] => []
  | _ :: outer => path :: outer

end Path
end RouteBook
