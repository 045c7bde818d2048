import RouteBook.Http.Uri
import RouteBook.Text.Bytes

/-! Requests and responses. -/

namespace RouteBook.Http

structure Request where
  method : String
  uri : Uri
  /-- Names in lower case, values as bytes, in order. -/
  headers : List (String × Bytes)
  body : Bytes
  deriving DecidableEq, Repr

structure Response where
  status : Nat
  headers : List (String × Bytes)
  body : Bytes
  deriving DecidableEq, Repr

/-- Characters of methods and header names. -/
def isTokenChar (c : Char) : Bool := c.isAlphanum || "!#$%&'*+-.^_\x60|~".toList.contains c

def isToken (text : String) : Bool := !text.isEmpty && text.toList.all isTokenChar

/-- The longest header name. -/
def headerNameLimit : Nat := 65535

/-- Bytes of a header value: a tab, or anything from the space on but the delete character. -/
def isHeaderByte (b : UInt8) : Bool := b = 9 || (32 ≤ b && b ≠ 127)

def parseHeader (name : String) (value : Bytes) : Except Refusal (String × Bytes) :=
  if !isToken name || headerNameLimit < name.utf8ByteSize then .error .headerName
  else if !value.all isHeaderByte then .error .headerValue
  else .ok (name.map Char.toLower, value)

namespace Request

/-- A request from its parts, each of which is checked. -/
def make (method uri : String) (headers : List (String × Bytes)) (body : Bytes) : Except Refusal Request := do
  if !isToken method then .error .method
  let uri ← Uri.parse uri
  let headers ← headers.mapM fun (name, value) => parseHeader name value
  .ok { method := method, uri := uri, headers := headers, body := body }

/-- The first value of a header. -/
def header? (request : Request) (name : String) : Option Bytes := request.headers.lookup name

end Request

namespace Response

def header? (response : Response) (name : String) : Option Bytes := response.headers.lookup name

/-- A header's values replaced by one. -/
def setHeader (response : Response) (name : String) (value : Bytes) : Response :=
  { response with headers := response.headers.filter (·.1 ≠ name) ++ [(name, value)] }

/-- A response with a text of the given media type. -/
def ofText (status : Nat) (mediaType body : String) : Response where
  status := status
  headers := [("content-type", utf8 mediaType)]
  body := utf8 body

def plain (status : Nat) (body : String) : Response := ofText status "text/plain; charset=utf-8" body

def html (body : String) : Response := ofText 200 "text/html; charset=utf-8" body

/-- The length of the body written into the header, unless one is there. -/
def withLength (response : Response) : Response :=
  if (response.header? "content-length").isSome then response
  else response.setHeader "content-length" (utf8 (toString response.body.length))

end Response
end RouteBook.Http
