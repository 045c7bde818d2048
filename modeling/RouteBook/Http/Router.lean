import RouteBook.Http.Message
import RouteBook.Log.Event

/-! Routing: a path is matched as it stands, and each path answers one method. A path that answers `GET`
answers `HEAD` too, with the same headers and no body. -/

namespace RouteBook.Http

/-- A service that always answers, with the events logged while it did. -/
abbrev Handler := Request → Response × List Log.Event

structure Endpoint where
  path : String
  method : String
  handler : Handler

namespace Endpoint

/-- The methods an endpoint answers. -/
def methods (endpoint : Endpoint) : List String :=
  if endpoint.method = "GET" then ["GET", "HEAD"] else [endpoint.method]

/-- The answer to a method the endpoint does not have. -/
def refuse (endpoint : Endpoint) : Response where
  status := 405
  headers := [("allow", utf8 (String.intercalate "," endpoint.methods)), ("content-length", utf8 "0")]
  body := []

def serve (endpoint : Endpoint) : Handler := fun request =>
  if request.method ∈ endpoint.methods then
    let (response, log) := endpoint.handler request
    let answer := response.withLength
    (if request.method = "HEAD" then { answer with body := [] } else answer, log)
  else (endpoint.refuse, [])

end Endpoint

/-- The answer where no endpoint has the path. Its length is told only if the path does not start with a
slash, so that no endpoint could have it. -/
def noRoute (path : List Char) : Response where
  status := 404
  headers := if path.head? = some '/' then [] else [("content-length", utf8 "0")]
  body := []

def route (endpoints : List Endpoint) : Handler := fun request =>
  match endpoints.find? (·.path = request.uri.pathText) with
  | some endpoint => endpoint.serve request
  | none => (noRoute request.uri.path, [])

end RouteBook.Http
