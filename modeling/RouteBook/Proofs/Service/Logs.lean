import RouteBook.Proofs.Service.Contract
import RouteBook.Proofs.Text.Decoding
import RouteBook.Viewer.Library

/-! What the log tells of a request. Everything that is logged while the service or the viewer answers a request
stands in one span, which tells the method, the target and the id of the request. One event is a summary line, the
last one, and the status it tells is the status of the response. -/

namespace RouteBook.Service

open Http (Request Response Handler Endpoint Uri)
open Log (Event Span)

variable {request : Request}

/-- A summary line is known by its type. -/
def IsCanonical (event : Event) : Prop := event.fields.lookup "log.type" = some (.string "canonical")

/-- Bytes of visible ASCII characters, spaces and tabs. -/
def Showable (value : Bytes) : Prop := ∀ b ∈ value, b = 9 ∨ 32 ≤ b ∧ b ≤ 126

/-- How an id is shown: byte for byte if all of it can be shown, and as a dash otherwise. -/
def ShownAs (id : Option Bytes) (text : String) : Prop :=
  (∃ value, id = some value ∧ Showable value ∧ utf8 text = value) ∨
    (∀ value, id = some value → ¬ Showable value) ∧ text = "-"

/-- The log of a request with the given method, target and id agrees with the response to it. -/
structure Agrees (method : String) (uri : Uri) (id : Option Bytes) (response : Response) (log : List Event) :
    Prop where
  /-- All events stand in one span of the request, and in no other one of that name. -/
  within : ∃ shown, ShownAs id shown ∧ ∀ event ∈ log, ∃ inner,
    event.spans = ⟨"request", [("method", .text method), ("uri", .text uri.text), ("request_id", .text shown)],
      .info⟩ :: inner ∧ ∀ span ∈ inner, span.name ≠ "request"
  /-- The one summary line comes last and tells the status of the response. -/
  summed : ∃ front line, log = front ++ [line] ∧ (∀ event ∈ front, ¬ IsCanonical event) ∧ IsCanonical line ∧
    line.fields.lookup "http.status_code" = some (.number response.status) ∧
    line.fields.lookup "http.method" = some (.text method) ∧
    line.fields.lookup "http.path" = some (.text uri.pathText)

/-! ### How ids are shown -/

theorem all_isShownByte_iff {value : Bytes} : value.all isShownByte = true ↔ Showable value := by
  have hbyte : ∀ b : UInt8, b < 127 ↔ b ≤ 126 := by
    intro b
    rw [UInt8.lt_iff_toNat_lt, UInt8.le_iff_toNat_le]
    exact Nat.lt_succ_iff
  simp [List.all_eq_true, isShownByte, Showable, hbyte]

/-- The text of ASCII bytes has these bytes. -/
theorem utf8_lossy_of_showable {value : Bytes} (h : Showable value) : utf8 (lossy value) = value := by
  have hascii : ∀ b ∈ value, b.toNat < 128 := by
    intro b hb
    rcases h b hb with rfl | ⟨-, hle⟩
    · decide
    · exact Nat.lt_of_le_of_lt (UInt8.le_iff_toNat_le.mp hle) (by decide)
  have hvalue : utf8 (String.ofList (value.map fun b => Char.ofNat b.toNat)) = value := by
    rw [utf8_ascii, String.toList_ofList, List.map_map]
    · exact (List.map_congr_left fun b _ => (eq_asciiByte_of_ofNat rfl).symm).trans (List.map_id value)
    · rw [String.toList_ofList]
      intro c hc
      obtain ⟨b, hb, rfl⟩ := List.mem_map.mp hc
      rw [toNat_ofNat_valid (Or.inl (by have := hascii b hb; omega))]
      exact hascii b hb
  rw [← hvalue, lossy_utf8]

theorem shownAs_shownRequestId (request : Request) :
    ShownAs (request.header? requestIdHeader) (shownRequestId request) := by
  unfold shownRequestId
  cases request.header? requestIdHeader with
  | none => exact Or.inr ⟨fun _ h => (by cases h), rfl⟩
  | some value =>
      by_cases hall : value.all isShownByte = true
      · have hshow := all_isShownByte_iff.mp hall
        simp only [hall, if_true]
        exact Or.inl ⟨value, rfl, hshow, utf8_lossy_of_showable hshow⟩
      · simp only [hall]
        refine Or.inr ⟨fun _ h => ?_, rfl⟩
        cases h
        exact fun hshow => hall (all_isShownByte_iff.mpr hshow)

/-! ### Events of handlers -/

/-- What may be logged while a request is answered: no summary line, and nothing in the span of a request. -/
def Quiet (log : List Event) : Prop :=
  ∀ event ∈ log, ¬ IsCanonical event ∧ ∀ span ∈ event.spans, span.name ≠ "request"

theorem quiet_nil : Quiet [] := fun _ h => (by cases h)

theorem Quiet.append {front back : List Event} (hfront : Quiet front) (hback : Quiet back) : Quiet (front ++ back) := by
  intro event h
  rcases List.mem_append.mp h with h | h
  · exact hfront event h
  · exact hback event h

/-- Routing logs nothing of its own. -/
theorem quiet_route {endpoints : List Endpoint} (h : ∀ endpoint ∈ endpoints, ∀ request, Quiet (endpoint.handler request).2)
    (request : Request) : Quiet (Http.route endpoints request).2 := by
  unfold Http.route
  split
  · next endpoint hfind =>
    unfold Endpoint.serve
    split
    · exact h endpoint (List.mem_of_find?_eq_some hfind) request
    · exact quiet_nil
  · exact quiet_nil

theorem log_echoed (inner : Handler) (request : Request) : (echoed inner request).2 = (inner request).2 := by
  unfold echoed
  dsimp only
  split <;> rfl

theorem quiet_endpoints : ∀ endpoint ∈ endpoints, ∀ request, Quiet (endpoint.handler request).2 := by
  simp [endpoints, Quiet, IsCanonical, getUsers, login, handlerSpan]

/-! ### The two layers -/

/-- Summed up in its span, whatever a handler does leaves a log that agrees with its response. -/
theorem agrees_traced {inner : Handler} (h : Quiet (inner request).2) :
    Agrees request.method request.uri (request.header? requestIdHeader) (traced (summed inner) request).1
      (traced (summed inner) request).2 := by
  set span := requestSpan request with hspan
  have hlog : (traced (summed inner) request).2 = (inner request).2.map (Event.inside span) ++
      [Event.inside span (summary request (.ok (inner request).1.status))] := by
    simp [traced, summed, hspan]
  rw [hlog]
  constructor
  · refine ⟨shownRequestId request, shownAs_shownRequestId request, ?_⟩
    intro event hevent
    rcases List.mem_append.mp hevent with hevent | hevent
    · obtain ⟨event, hmem, rfl⟩ := List.mem_map.mp hevent
      exact ⟨event.spans, rfl, (h event hmem).2⟩
    · rw [List.mem_singleton.mp hevent]
      exact ⟨[], rfl, fun _ h => (by cases h)⟩
  · refine ⟨_, _, rfl, ?_, rfl, rfl, rfl, rfl⟩
    intro event hevent
    obtain ⟨event, hmem, rfl⟩ := List.mem_map.mp hevent
    exact (h event hmem).1

theorem agrees_app (id : String) (request : Request) :
    Agrees request.method request.uri (some ((request.header? requestIdHeader).getD (utf8 id))) (app id request).1
      (app id request).2 := by
  have hquiet : Quiet (echoed (Http.route endpoints) (withId id request)).2 := by
    rw [log_echoed]
    exact quiet_route quiet_endpoints _
  have hagrees := agrees_traced hquiet
  rw [method_withId, uri_withId, header?_withId] at hagrees
  rwa [app, identified_eq]

end RouteBook.Service

namespace RouteBook.Viewer

open Http (Request)
open Service (Quiet quiet_nil)

theorem quiet_respond (e : ViewError) : Quiet e.respond.2 := by
  cases e <;> simp [ViewError.respond, Quiet, Service.IsCanonical, List.lookup_cons]

theorem quiet_documentNames (tree : FileTree) (dir : Path) : Quiet (documentNames tree dir).2 := by
  unfold documentNames
  split
  · split_ifs <;> simp [Quiet, Service.IsCanonical, List.lookup_cons]
  · exact quiet_nil

theorem quiet_list (tree : FileTree) (dir : Path) (request : Request) : Quiet (list tree dir request).2 := by
  have hnames := quiet_documentNames tree dir
  unfold list
  split
  · next names log heq => rwa [heq] at hnames
  · next e log heq =>
    rw [heq] at hnames
    exact hnames.append (quiet_respond e)

theorem quiet_view (tree : FileTree) (dir : Path) (request : Request) : Quiet (view tree dir request).2 := by
  unfold view
  split
  · exact quiet_nil
  · split
    · exact quiet_nil
    · exact quiet_respond _

theorem agrees_viewer (tree : FileTree) (dir : Path) (request : Request) :
    Service.Agrees request.method request.uri (request.header? Service.requestIdHeader)
      (viewer tree dir request).1 (viewer tree dir request).2 := by
  refine Service.agrees_traced (Service.quiet_route ?_ request)
  intro endpoint hendpoint
  rcases List.mem_pair.mp hendpoint with rfl | rfl
  · exact quiet_list tree dir
  · exact quiet_view tree dir

end RouteBook.Viewer

namespace RouteBook.Service

/-- The log agrees with the response, in the service and in the viewer. The id that the log shows is the one that the
service sends back, be it brought or made; the viewer shows the one that the request brings. -/
theorem log_agrees_with_response :
    (∀ clock draw request, ∃ id, id = (request.header? requestIdHeader).getD (utf8 (newId clock draw).2) ∧
      ((serve clock draw request).2.1.headers.filter fun header => header.1 = requestIdHeader) =
        [(requestIdHeader, id)] ∧
      Agrees request.method request.uri (some id) (serve clock draw request).2.1 (serve clock draw request).2.2) ∧
    ∀ tree dir request, Agrees request.method request.uri (request.header? requestIdHeader)
      (Viewer.viewer tree dir request).1 (Viewer.viewer tree dir request).2 := by
  refine ⟨fun clock draw request => ?_, Viewer.agrees_viewer⟩
  obtain ⟨id, hfulfils, hbrought, hmade⟩ := fulfils_serve clock draw request
  cases hid : request.header? requestIdHeader with
  | some value =>
      have hagrees := agrees_app "" request
      rw [hid, Option.getD_some] at hagrees
      rw [Option.getD_some]
      rw [serve_of_some hid] at hfulfils ⊢
      exact ⟨value, rfl, hbrought value hid ▸ hfulfils.id, hagrees⟩
  | none =>
      have hagrees := agrees_app (newId clock draw).2 request
      rw [hid, Option.getD_none] at hagrees
      rw [Option.getD_none]
      rw [serve_of_none hid] at hfulfils ⊢
      exact ⟨_, rfl, hmade hid ▸ hfulfils.id, hagrees⟩

end RouteBook.Service
