import RouteBook.Json.Print
import RouteBook.Json.Record

/-! The body of the user listing. -/

namespace RouteBook.Service

/-- The users of a listing, each a free JSON value; the service itself always answers with none. -/
structure UsersResponse where
  users : List Json.Value

namespace UsersResponse

def empty : UsersResponse := ⟨[]⟩

def toJson (response : UsersResponse) : String :=
  (Json.Value.obj [("users", .arr response.users)]).compact

/-- Two brackets of the nesting limit are taken by the listing itself. -/
def reader : Json.Reader UsersResponse :=
  Json.Reader.record "UsersResponse"
    [{ name := "users"
       required := true
       read := fun _ text => (Json.Reader.values (Json.Outline.maxLevels - 1) text).map fun (users, rest) =>
        (⟨users⟩, rest) }]
    empty

def parse (text : String) : Except Json.Fault UsersResponse := Json.Reader.run reader text

end UsersResponse

end RouteBook.Service
