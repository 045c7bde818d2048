import RouteBook.Http.Router

/-! What serving a request leaves in the log: every event lies in a span that tells the request's method,
target and id, and the last one is the summary line, the only one that tells the outcome. -/

namespace RouteBook.Service

open Http (Request Response Handler)
open Log (Event Span)

/-- The header that carries the id of a request. -/
def requestIdHeader : String := "x-request-id"

/-- A byte that can be shown: a tab, a space or a visible ASCII character. -/
def isShownByte (b : UInt8) : Bool := b = 9 || (32 ≤ b && b < 127)

/-- The id of a request as it is shown: a dash when there is none, or none that can be shown. -/
def shownRequestId (request : Request) : String :=
  match request.header? requestIdHeader with
  | some value => if value.all isShownByte then lossy value else "-"
  | none => "-"

/-- The span around all that is logged for a request. -/
def requestSpan (request : Request) : Span where
  name := "request"
  fields := [("method", .text request.method), ("uri", .text request.uri.text),
    ("request_id", .text (shownRequestId request))]

/-- The fields that every summary line starts with. -/
def summaryFields (request : Request) : Log.Fields :=
  [("log.type", .string "canonical"), ("http.method", .text request.method),
    ("http.path", .text request.uri.pathText)]

/-- The line that sums up a request: its status, or the text of the failure that came instead. -/
def summary (request : Request) : Except String Nat → Event
  | .ok status =>
    { level := .info
      target := "sampleapi_shared::canonical_log"
      message := "リクエスト完了"
      fields := summaryFields request ++ [("http.status_code", .number status), ("http.latency_ms", .elapsed)]
      spans := [] }
  | .error failure =>
    { level := .error
      target := "sampleapi_shared::canonical_log"
      message := "リクエスト処理エラー"
      fields := summaryFields request ++ [("http.latency_ms", .elapsed), ("error.message", .text failure)]
      spans := [] }

/-- Sums up every request at its end. -/
def summed (inner : Handler) : Handler := fun request =>
  let (response, log) := inner request
  (response, log ++ [summary request (.ok response.status)])

/-- Puts the request's span around its events. -/
def traced (inner : Handler) : Handler := fun request =>
  let (response, log) := inner request
  (response, log.map (Event.inside (requestSpan request)))

end RouteBook.Service
