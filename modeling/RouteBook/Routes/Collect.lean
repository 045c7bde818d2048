import RouteBook.OpenApi.Document
import RouteBook.Routes.Basic
import RouteBook.Text.Search

/-! The routes of a document: those of the service's own table first, in the order of that table, then all
others by path, and within a path by method. -/

namespace RouteBook.Routes

open OpenApi (Operation PathItem Document)

def userPath : String := "/user"

def loginPath : String := "/login"

/-- The declared routes in the order of their declaration. -/
def declared : List (String × String) := [("GET", userPath), ("POST", loginPath)]

/-- The place of a route in the declaration order; undeclared routes share the place after the last. -/
def rank (route : Route) : Nat := declared.findIdx (· = (route.method, route.path))

/-- The documented operations of a path with their methods. -/
def operations (item : PathItem) : List (String × Operation) :=
  [("GET", item.get), ("POST", item.post), ("PUT", item.put), ("PATCH", item.patch), ("DELETE", item.delete)].filterMap
    fun (method, operation) => operation.map fun o => (method, o)

/-- The first example among the contents of the answer 200: a string of a media type that is not JSON stands
for itself, everything else for its JSON form. -/
def sampleOf (operation : Operation) : Sample :=
  match operation.responses.lookup "200" with
  | some (.inPlace contents) =>
    (contents.findSome? fun content =>
      content.example?.map fun value =>
        match value with
        | .str text =>
          if Text.occursIn "json".toList content.mediaType.toList then .json value else .text text
        | other => .json other).getD .placeholder
  | _ => .placeholder

def ofOperation (method path : String) (operation : Operation) : Route where
  method := method
  path := path
  function := operation.operationId.getD "unknown"
  description := describe operation.summary operation.description
  sample := sampleOf operation

/-- The routes of a document before they are put into declaration order. -/
def inDocumentOrder (document : Document) : List Route :=
  document.paths.entries.flatMap fun (path, item) =>
    (operations item).map fun (method, operation) => ofOperation method path operation

def collect (document : Document) : List Route :=
  (inDocumentOrder document).mergeSort fun a b => rank a ≤ rank b

/-- The Markdown page of a document. -/
def markdownFor (document : Document) (title : String) : String := markdown title (collect document)

end RouteBook.Routes
