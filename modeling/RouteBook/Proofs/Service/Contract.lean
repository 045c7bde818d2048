import RouteBook.Proofs.Service.Ids
import RouteBook.Service.App

/-! What the service answers. `contract` is the table of its answers by method and path; nothing else of a request
counts but the id, which goes back with every answer, also with the ones that refuse. A request that brings no id is
given one that no request before it in the run was given. -/

namespace RouteBook.Service

open Http (Request Response)

variable {clock : IdClock} {draw : Draw} {request : Request}

/-- The listing of no users. -/
def listing : Response where
  status := 200
  headers := [("content-type", utf8 "application/json"), ("content-length", utf8 "12")]
  body := utf8 "\x7b\"users\":[]\x7d"

def acknowledgement : Response where
  status := 200
  headers := [("content-type", utf8 "text/plain; charset=utf-8"), ("content-length", utf8 "2")]
  body := utf8 "ok"

/-- The answer to a method that a path does not have, with the methods it has. -/
def methodRefused (allowed : String) : Response where
  status := 405
  headers := [("allow", utf8 allowed), ("content-length", utf8 "0")]
  body := []

def missing (path : String) : Response where
  status := 404
  headers := if path.toList.head? = some '/' then [] else [("content-length", utf8 "0")]
  body := []

/-- What the service answers to a method on a path, apart from the id of the request. -/
def contract (method path : String) : Response :=
  if path = "/user" then
    if method = "GET" then listing
    else if method = "HEAD" then { listing with body := [] }
    else methodRefused "GET,HEAD"
  else if path = "/login" then
    if method = "POST" then acknowledgement else methodRefused "POST"
  else missing path

/-! ### The routes -/

theorem withLength_listing :
    (Response.ofText 200 "application/json" getUsers.1.toJson).withLength = listing := by
  decide +kernel

theorem withLength_acknowledgement : (Response.plain 200 login.1).withLength = acknowledgement := by
  decide +kernel

theorem route_endpoints (request : Request) :
    (Http.route endpoints request).1 = contract request.method request.uri.pathText := by
  unfold Http.route contract
  by_cases huser : request.uri.pathText = "/user"
  · by_cases hget : request.method = "GET"
    · simp [endpoints, Routes.userPath, huser, Http.Endpoint.serve, Http.Endpoint.methods, hget, withLength_listing]
    by_cases hhead : request.method = "HEAD"
    · simp [endpoints, Routes.userPath, huser, Http.Endpoint.serve, Http.Endpoint.methods, hhead, withLength_listing]
    · simp [endpoints, Routes.userPath, huser, Http.Endpoint.serve, Http.Endpoint.methods, hget, hhead,
        Http.Endpoint.refuse, methodRefused]
  by_cases hlogin : request.uri.pathText = "/login"
  · by_cases hpost : request.method = "POST"
    · simp [endpoints, Routes.userPath, Routes.loginPath, hlogin, Http.Endpoint.serve, Http.Endpoint.methods, hpost,
        withLength_acknowledgement]
    · simp [endpoints, Routes.userPath, Routes.loginPath, hlogin, Http.Endpoint.serve, Http.Endpoint.methods, hpost,
        Http.Endpoint.refuse, methodRefused]
  · have hnone : endpoints.find? (fun endpoint => endpoint.path = request.uri.pathText) = none := by
      simp [endpoints, Routes.userPath, Routes.loginPath, Ne.symm huser, Ne.symm hlogin]
    rw [hnone, if_neg huser, if_neg hlogin, missing, Http.Uri.pathText, String.toList_ofList]
    rfl

theorem not_requestId_of_mem_contract {method path : String} :
    ∀ header ∈ (contract method path).headers, header.1 ≠ requestIdHeader := by
  unfold contract missing
  split_ifs <;> simp [listing, methodRefused, acknowledgement, requestIdHeader]

/-! ### The layers -/

/-- A request with the id it brings, or with one that is made for it. -/
def withId (id : String) (request : Request) : Request :=
  match request.header? requestIdHeader with
  | some _ => request
  | none => { request with headers := request.headers ++ [(requestIdHeader, utf8 id)] }

theorem method_withId (id : String) (request : Request) : (withId id request).method = request.method := by
  unfold withId
  split <;> rfl

theorem uri_withId (id : String) (request : Request) : (withId id request).uri = request.uri := by
  unfold withId
  split <;> rfl

theorem header?_withId (id : String) (request : Request) :
    (withId id request).header? requestIdHeader = some ((request.header? requestIdHeader).getD (utf8 id)) := by
  unfold withId
  cases hid : request.header? requestIdHeader with
  | some value => simpa using hid
  | none =>
      rw [Request.header?] at hid
      simp [Request.header?, List.lookup_append, hid]

theorem identified_eq (id : String) (inner : Http.Handler) (request : Request) :
    identified id inner request = inner (withId id request) := by
  unfold identified withId
  cases request.header? requestIdHeader <;> rfl

theorem header?_eq_none {response : Response} (h : ∀ header ∈ response.headers, header.1 ≠ requestIdHeader) :
    response.header? requestIdHeader = none := by
  rw [Response.header?, List.lookup_eq_none_iff]
  intro header hheader
  exact bne_iff_ne.mpr (Ne.symm (h header hheader))

/-- The id of the request is added to a response that has none. -/
theorem echoed_eq {inner : Http.Handler} {value : Bytes} (hid : request.header? requestIdHeader = some value)
    (hnone : (inner request).1.header? requestIdHeader = none) :
    echoed inner request = ((inner request).1.setHeader requestIdHeader value, (inner request).2) := by
  simp only [echoed, hid, hnone]

/-- The routes of the service with the id of the request sent back. -/
theorem echoed_route (id : String) (request : Request) :
    echoed (Http.route endpoints) (withId id request) =
      ((contract request.method request.uri.pathText).setHeader requestIdHeader
        ((request.header? requestIdHeader).getD (utf8 id)), (Http.route endpoints (withId id request)).2) := by
  have hroute := route_endpoints (withId id request)
  rw [method_withId, uri_withId] at hroute
  rw [echoed_eq (header?_withId id request), hroute]
  rw [hroute]
  exact header?_eq_none not_requestId_of_mem_contract

/-- The service answers by its contract, and sends the id of the request back. -/
theorem response_app (id : String) (request : Request) :
    (app id request).1 = (contract request.method request.uri.pathText).setHeader requestIdHeader
      ((request.header? requestIdHeader).getD (utf8 id)) := by
  rw [app, identified_eq]
  simp only [traced, summed, echoed_route]

/-- What a response is made of, apart from the id, and the one id it carries. -/
theorem setHeader_parts {response : Response} (h : ∀ header ∈ response.headers, header.1 ≠ requestIdHeader)
    (value : Bytes) :
    ((response.setHeader requestIdHeader value).headers.filter fun header => header.1 ≠ requestIdHeader) =
        response.headers ∧
      ((response.setHeader requestIdHeader value).headers.filter fun header => header.1 = requestIdHeader) =
        [(requestIdHeader, value)] := by
  have hkeep : (response.headers.filter fun header => header.1 ≠ requestIdHeader) = response.headers :=
    List.filter_eq_self.mpr fun header hheader => by simpa using h header hheader
  have hdrop : (response.headers.filter fun header => header.1 = requestIdHeader) = [] :=
    List.filter_eq_nil_iff.mpr fun header hheader => by simpa using h header hheader
  simp only [Response.setHeader, hkeep, List.filter_append, hdrop]
  simp

/-! ### Runs -/

/-- The clock of ids after some requests. -/
def clockAfter (clock : IdClock) (requests : List (Draw × Request)) : IdClock :=
  requests.foldl (fun clock item => (serve clock item.1 item.2).1) clock

/-- The ids made for the requests of a run that bring none. -/
def madeIds (clock : IdClock) : List (Draw × Request) → List String
  | [] => []
  | (draw, request) :: rest =>
    match request.header? requestIdHeader with
    | some _ => madeIds clock rest
    | none => (newId clock draw).2 :: madeIds (newId clock draw).1 rest

theorem serve_of_some {value : Bytes} (h : request.header? requestIdHeader = some value) :
    serve clock draw request = (clock, app "" request) := by
  simp only [serve, h]

theorem serve_of_none (h : request.header? requestIdHeader = none) :
    serve clock draw request = ((newId clock draw).1, app (newId clock draw).2 request) := by
  simp only [serve, h]

theorem length_serveAll (clock : IdClock) (requests : List (Draw × Request)) :
    (serveAll clock requests).length = requests.length := by
  induction requests generalizing clock with
  | nil => rfl
  | cons item rest ih => simp only [serveAll, List.length_cons, ih]

/-- Each request of a run is served at the clock that the ones before it left. -/
theorem getElem?_serveAll (clock : IdClock) (requests : List (Draw × Request)) (i : Nat) :
    (serveAll clock requests)[i]? =
      requests[i]?.map fun item => (serve (clockAfter clock (requests.take i)) item.1 item.2).2 := by
  induction requests generalizing clock i with
  | nil => rfl
  | cons item rest ih =>
      cases i with
      | zero => rfl
      | succ i =>
          simp only [serveAll, List.getElem?_cons_succ, List.take_succ_cons, ih]
          rfl

theorem clockAfter_append (clock : IdClock) (requests more : List (Draw × Request)) :
    clockAfter clock (requests ++ more) = clockAfter (clockAfter clock requests) more := List.foldl_append

/-- Serving never turns the clock of ids back. -/
theorem moment_le_clockAfter (clock : IdClock) (requests : List (Draw × Request)) :
    clock.moment ≤ (clockAfter clock requests).moment := by
  induction requests generalizing clock with
  | nil => exact le_rfl
  | cons item rest ih =>
      refine le_trans ?_ (ih (serve clock item.1 item.2).1)
      cases hid : item.2.header? requestIdHeader with
      | some value => rw [serve_of_some hid]
      | none =>
          rw [serve_of_none hid]
          exact (clock.moment_lt_next item.1).le

theorem moment_take_le (clock : IdClock) (requests : List (Draw × Request)) (i : Nat) :
    (clockAfter clock (requests.take i)).moment ≤ (clockAfter clock requests).moment := by
  conv_rhs => rw [← List.take_append_drop i requests, clockAfter_append]
  exact moment_le_clockAfter _ _

theorem clockAfter_take_succ {requests : List (Draw × Request)} {i : Nat} (h : requests[i]? = some (draw, request))
    (hid : request.header? requestIdHeader = none) :
    clockAfter clock (requests.take (i + 1)) = (newId (clockAfter clock (requests.take i)) draw).1 := by
  rw [List.take_add_one, h, Option.toList_some, clockAfter_append]
  simp only [clockAfter, List.foldl_cons, List.foldl_nil, serve_of_none hid]

/-- Every id of a run was made no later than the moment at which the clock stands after it. -/
theorem exists_moment_of_mem_madeIds {requests : List (Draw × Request)} {text : String}
    (h : text ∈ madeIds clock requests) :
    ∃ (made : IdClock) (tail : Nat), text = uuidText (made.bits tail) ∧ made.counter < IdClock.counterRange ∧
      made.moment ≤ (clockAfter clock requests).moment := by
  induction requests generalizing clock with
  | nil => cases h
  | cons item rest ih =>
      obtain ⟨draw, request⟩ := item
      cases hid : request.header? requestIdHeader with
      | some value =>
          simp only [madeIds, hid] at h
          have hclock : clockAfter clock ((draw, request) :: rest) = clockAfter clock rest := by
            simp only [clockAfter, List.foldl_cons, serve_of_some hid]
          rw [hclock]
          exact ih h
      | none =>
          simp only [madeIds, hid] at h
          have hclock : clockAfter clock ((draw, request) :: rest) = clockAfter (newId clock draw).1 rest := by
            simp only [clockAfter, List.foldl_cons, serve_of_none hid]
          rw [hclock]
          rcases List.mem_cons.mp h with rfl | h
          · exact ⟨_, _, rfl, clock.counter_next_lt draw, moment_le_clockAfter _ _⟩
          · exact ih h

/-- An id that is made next was not made before, as long as an id can show the time. -/
theorem newId_not_mem_madeIds {requests : List (Draw × Request)}
    (hrange : (newId (clockAfter clock requests) draw).1.millis < IdClock.timeRange) :
    (newId (clockAfter clock requests) draw).2 ∉ madeIds clock requests := by
  intro hmem
  obtain ⟨made, tail, heq, hcounter, hmoment⟩ := exists_moment_of_mem_madeIds hmem
  have hlt := hmoment.trans_lt ((clockAfter clock requests).moment_lt_next draw)
  exact uuidText_bits_ne hlt hcounter (IdClock.counter_next_lt _ _) hrange heq.symm

/-- A response is the one that the contract has for the request, with one id. -/
structure Fulfils (request : Request) (id : Bytes) (response : Response) : Prop where
  status : response.status = (contract request.method request.uri.pathText).status
  body : response.body = (contract request.method request.uri.pathText).body
  headers : (response.headers.filter fun header => header.1 ≠ requestIdHeader) =
    (contract request.method request.uri.pathText).headers
  id : (response.headers.filter fun header => header.1 = requestIdHeader) = [(requestIdHeader, id)]

theorem fulfils_app (id : String) (request : Request) :
    Fulfils request ((request.header? requestIdHeader).getD (utf8 id)) (app id request).1 := by
  rw [response_app]
  have hnone : ∀ header ∈ (contract request.method request.uri.pathText).headers, header.1 ≠ requestIdHeader :=
    not_requestId_of_mem_contract
  obtain ⟨hheaders, hid⟩ := setHeader_parts hnone ((request.header? requestIdHeader).getD (utf8 id))
  exact ⟨rfl, rfl, hheaders, hid⟩

/-- Serving a request fulfils the contract, with the id that the request brings or a new one. -/
theorem fulfils_serve (clock : IdClock) (draw : Draw) (request : Request) :
    ∃ id, Fulfils request id (serve clock draw request).2.1 ∧
      (∀ value, request.header? requestIdHeader = some value → id = value) ∧
      (request.header? requestIdHeader = none → id = utf8 (newId clock draw).2) := by
  cases hid : request.header? requestIdHeader with
  | some value =>
      have hfulfils := fulfils_app "" request
      rw [hid, Option.getD_some] at hfulfils
      rw [serve_of_some hid]
      exact ⟨value, hfulfils, fun _ heq => Option.some.inj heq, fun hnone => by cases hnone⟩
  | none =>
      have hfulfils := fulfils_app (newId clock draw).2 request
      rw [hid, Option.getD_none] at hfulfils
      rw [serve_of_none hid]
      exact ⟨utf8 (newId clock draw).2, hfulfils, fun _ heq => (by cases heq), fun _ => rfl⟩

/-- In every run each response is fixed by the method and the path of its request, but for the id. The id is the one
that the request brings, or one that is made for it: a UUID of version 7 that no request before was given. -/
theorem serveAll_contract (clock : IdClock) (requests : List (Draw × Request)) {i : Nat} {draw : Draw}
    {request : Request} (h : requests[i]? = some (draw, request)) :
    (serveAll clock requests).length = requests.length ∧
    ∃ response log id, (serveAll clock requests)[i]? = some (response, log) ∧ Fulfils request id response ∧
      (∀ value, request.header? requestIdHeader = some value → id = value) ∧
      (request.header? requestIdHeader = none →
        ∃ text, text = (newId (clockAfter clock (requests.take i)) draw).2 ∧ id = utf8 text ∧ isUuidV7 text = true ∧
          ((clockAfter clock requests).millis < IdClock.timeRange → text ∉ madeIds clock (requests.take i))) := by
  refine ⟨length_serveAll clock requests, ?_⟩
  have hanswer := getElem?_serveAll clock requests i
  rw [h, Option.map_some] at hanswer
  obtain ⟨id, hfulfils, hbrought, hmade⟩ := fulfils_serve (clockAfter clock (requests.take i)) draw request
  rcases hserve : serve (clockAfter clock (requests.take i)) draw request with ⟨after, response, log⟩
  rw [hserve] at hanswer hfulfils
  refine ⟨response, log, id, hanswer, hfulfils, hbrought, fun hid => ?_⟩
  refine ⟨_, rfl, hmade hid, isUuidV7_newId _ _, fun hrange => newId_not_mem_madeIds ?_⟩
  rw [← clockAfter_take_succ h hid]
  exact (IdClock.millis_le_of_moment_le (moment_take_le clock requests (i + 1))).trans_lt hrange

/-- A request for the users that brings no id. -/
def plainGet : Request where
  method := "GET"
  uri := ⟨none, [], "/user".toList, some "page=2".toList⟩
  headers := [("cookie", utf8 "a=b")]
  body := utf8 "ignored"

/-- Two requests in one millisecond that bring no id. -/
def twice : List (Draw × Request) := [(⟨1, 5, 0⟩, plainGet), (⟨1, 7, 0⟩, plainGet)]

/-- The second of two requests in one millisecond has an id of its own. -/
theorem serveAll_contract_twice : twice[1]? = some (⟨1, 7, 0⟩, plainGet) ∧
    ∃ response log text, (serveAll {} twice)[1]? = some (response, log) ∧ response.status = 200 ∧
      response.body = utf8 "\x7b\"users\":[]\x7d" ∧
      (response.headers.filter fun header => header.1 = requestIdHeader) = [(requestIdHeader, utf8 text)] ∧
      isUuidV7 text = true ∧ text ∉ madeIds {} (twice.take 1) := by
  have hsecond : twice[1]? = some (⟨1, 7, 0⟩, plainGet) := rfl
  obtain ⟨-, response, log, id, hanswer, hfulfils, -, hnew⟩ := serveAll_contract {} twice hsecond
  obtain ⟨text, -, rfl, huuid, hfresh⟩ := hnew rfl
  refine ⟨hsecond, response, log, text, hanswer, hfulfils.status, hfulfils.body, hfulfils.id, huuid, hfresh ?_⟩
  decide

end RouteBook.Service
