import RouteBook.Json.Print
import RouteBook.OpenApi.Grammar
import RouteBook.Yaml.Print

/-! OpenAPI documents. A document is its standard form, a JSON tree with the fields in writing order; the
paths, operations and responses that route descriptions are made from are views of that tree. -/

namespace RouteBook.OpenApi

open Json (Value Outline Fault)

def member? (key : String) : Value → Option Value
  | .obj members => members.lookup key
  | _ => none

def textMember? (key : String) (tree : Value) : Option String :=
  match member? key tree with
  | some (.str s) => some s
  | _ => none

def members : Value → List (String × Value)
  | .obj found => found
  | _ => []

/-- One representation of a response body. -/
structure Content where
  mediaType : String
  example? : Option Value

inductive Response
  | reference
  /-- The contents in document order. -/
  | inPlace (contents : List Content)

structure Operation where
  operationId : Option String
  summary : Option String
  description : Option String
  responses : List (String × Response)

/-- The operations of a path that are documented as routes. -/
structure PathItem where
  get : Option Operation
  post : Option Operation
  put : Option Operation
  patch : Option Operation
  delete : Option Operation

/-- The path items of a document in the order of their paths, each path once. -/
structure PathMap where
  entries : List (String × PathItem)
  sorted : Value.Sorted entries

/-- The path items of some members; of a repeated path the first item counts. -/
def PathMap.ofMembers (found : List (String × PathItem)) : PathMap where
  entries := Value.sortMembers found.reverse
  sorted := Value.sorted_sortMembers _

def Content.ofTree (entry : String × Value) : Content where
  mediaType := entry.1
  example? := member? "example" entry.2

def Response.ofTree (tree : Value) : Response :=
  if (member? "$ref" tree).isSome then .reference
  else .inPlace (((member? "content" tree).map members).getD [] |>.map Content.ofTree)

def Operation.ofTree (tree : Value) : Operation where
  operationId := textMember? "operationId" tree
  summary := textMember? "summary" tree
  description := textMember? "description" tree
  responses := ((member? "responses" tree).map members).getD [] |>.map fun (status, response) =>
    (status, Response.ofTree response)

def PathItem.ofTree (tree : Value) : PathItem where
  get := (member? "get" tree).map Operation.ofTree
  post := (member? "post" tree).map Operation.ofTree
  put := (member? "put" tree).map Operation.ofTree
  patch := (member? "patch" tree).map Operation.ofTree
  delete := (member? "delete" tree).map Operation.ofTree

structure Document where
  tree : Value

namespace Document

/-- More than any text can nest: brackets nest at most 127 deep, and no bracket takes more than eight
shapes to read. -/
def nesting : Nat := 8 * (Outline.maxLevels + 1)

/-- Reads a document from a JSON text. -/
def parse (text : String) : Except Fault Document := do
  let (outline, trailing) := Outline.ofText text
  let tree ← Shape.read Grammar.schema nesting Grammar.document outline
  match trailing with
  | some fault => .error fault
  | none => .ok ⟨tree⟩

def paths (document : Document) : PathMap :=
  .ofMembers (((member? "paths" document.tree).map members).getD [] |>.map fun (path, item) =>
    (path, PathItem.ofTree item))

def toYaml (document : Document) : String := Yaml.print document.tree

def toJson (document : Document) : String := document.tree.compact

end Document

end RouteBook.OpenApi
