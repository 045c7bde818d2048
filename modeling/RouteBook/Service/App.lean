import RouteBook.Routes.Collect
import RouteBook.Service.RequestId
import RouteBook.Service.Users

/-! The service: a user listing that is always empty and a login that only acknowledges. -/

namespace RouteBook.Service

open Http (Request Response Handler Endpoint)
open Log (Event Span)

/-- The body of every login answer. -/
def loginAck : String := "ok"

/-- The span that a handler runs in, named after it. -/
def handlerSpan (name : String) : Span := { name := name, fields := [] }

/-- The user listing with the events it logs. -/
def getUsers : UsersResponse × List Event :=
  (.empty,
    [{ level := .debug
       target := "sampleapi_api::handler::user"
       message := "空のユーザー一覧を返します"
       fields := []
       spans := [handlerSpan "get_users"] }])

/-- The answer to a login with the events it logs; no credentials are looked at. -/
def login : String × List Event :=
  (loginAck,
    [{ level := .debug
       target := "sampleapi_api::handler::auth"
       message := "ログイン要求を受け付けました（資格情報は検証しません）"
       fields := []
       spans := [handlerSpan "login"] }])

def endpoints : List Endpoint :=
  [{ path := Routes.userPath
     method := "GET"
     handler := fun _ => (.ofText 200 "application/json" getUsers.1.toJson, getUsers.2) },
   { path := Routes.loginPath
     method := "POST"
     handler := fun _ => (.plain 200 login.1, login.2) }]

/-- The service around a new id for requests that bring none. -/
def app (id : String) : Handler := identified id (traced (summed (echoed (Http.route endpoints))))

/-- Serves a request, with a draw for the id it may need, and gives the clock of ids after it. -/
def serve (clock : IdClock) (draw : Draw) (request : Request) : IdClock × Response × List Event :=
  match request.header? requestIdHeader with
  | some _ => (clock, app "" request)
  | none =>
    let (clock', id) := newId clock draw
    (clock', app id request)

/-- Serves requests one after another. -/
def serveAll (clock : IdClock) : List (Draw × Request) → List (Response × List Event)
  | [] => []
  | (draw, request) :: rest =>
    let (clock', answer) := serve clock draw request
    answer :: serveAll clock' rest

end RouteBook.Service
