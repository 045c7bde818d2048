import RouteBook.Proofs.Service.Logs
import RouteBook.Service.Handles

/-! Summary lines over any interleaving of calls. Whatever is done with the handles on a service, and in whatever order
the calls end, the log holds one line for each call that has ended, about the request of that call and the way it
ended. What the steps say of requests and ends is read off the list of steps alone, and compared with the handles
after every step. -/

namespace RouteBook.Service

open Http (Request Response)
open Log (Event)

variable {ε : Type} {describe : ε → String} {steps : List (Step ε)} {last : Step ε} {number : Nat}
  {outcome : Except ε Response}

/-! ### What the steps say -/

/-- The number of handles after some steps: a clone of a handle that exists adds one. -/
def handlesAfter (count : Nat) : List (Step ε) → Nat
  | [] => count
  | .clone handle :: steps => handlesAfter (if handle < count then count + 1 else count) steps
  | _ :: steps => handlesAfter count steps

/-- The requests that are given to handles that exist, in the order of the calls. -/
def requestsOf (count : Nat) : List (Step ε) → List Request
  | [] => []
  | .clone handle :: steps => requestsOf (if handle < count then count + 1 else count) steps
  | .call handle request :: steps => (if handle < count then [request] else []) ++ requestsOf count steps
  | _ :: steps => requestsOf count steps

/-- A call was made and came to its end. -/
def Ended (steps : List (Step ε)) (number : Nat) : Prop :=
  ∃ before outcome after, steps = before ++ .finish number outcome :: after ∧ number < (requestsOf 1 before).length

/-- The first end of a call after it was made, with what the service behind answered. -/
def EndsWith (steps : List (Step ε)) (number : Nat) (outcome : Except ε Response) : Prop :=
  ∃ before after, steps = before ++ .finish number outcome :: after ∧ number < (requestsOf 1 before).length ∧
    ¬ Ended before number

/-- An event is the summary line of a request that ended in the given way. -/
structure Sums (describe : ε → String) (request : Request) (outcome : Except ε Response) (event : Event) : Prop where
  canonical : IsCanonical event
  method : event.fields.lookup "http.method" = some (.text request.method)
  path : event.fields.lookup "http.path" = some (.text request.uri.pathText)
  answered : ∀ response, outcome = .ok response →
    event.level = .info ∧ event.fields.lookup "http.status_code" = some (.number response.status)
  failed : ∀ e, outcome = .error e → event.level = .error ∧
    event.fields.lookup "error.message" = some (.text (describe e)) ∧ event.fields.lookup "http.status_code" = none

theorem handlesAfter_append (count : Nat) (steps more : List (Step ε)) :
    handlesAfter count (steps ++ more) = handlesAfter (handlesAfter count steps) more := by
  induction steps generalizing count with
  | nil => rfl
  | cons step steps ih => cases step <;> simp only [List.cons_append, handlesAfter, ih]

theorem requestsOf_append (count : Nat) (steps more : List (Step ε)) :
    requestsOf count (steps ++ more) = requestsOf count steps ++ requestsOf (handlesAfter count steps) more := by
  induction steps generalizing count with
  | nil => rfl
  | cons step steps ih =>
      cases step <;> simp only [List.cons_append, requestsOf, handlesAfter, ih, List.append_assoc]

/-- A split of a longer list at some element is one of the list, or it is at the end. -/
theorem concat_eq_append_cons_iff {α : Type} {xs before after : List α} {x y : α} :
    xs ++ [x] = before ++ y :: after ↔
      (∃ rest, after = rest ++ [x] ∧ xs = before ++ y :: rest) ∨ after = [] ∧ before = xs ∧ y = x := by
  rcases List.eq_nil_or_concat after with rfl | ⟨rest, z, rfl⟩
  · rw [List.append_singleton_inj]
    constructor
    · rintro ⟨rfl, rfl⟩
      exact Or.inr ⟨rfl, rfl, rfl⟩
    · rintro (⟨rest, hnil, -⟩ | ⟨-, rfl, rfl⟩)
      · simp at hnil
      · exact ⟨rfl, rfl⟩
  · have hassoc : before ++ y :: rest.concat z = (before ++ y :: rest) ++ [z] := by simp
    rw [hassoc, List.append_singleton_inj, List.concat_eq_append]
    constructor
    · rintro ⟨rfl, rfl⟩
      exact Or.inl ⟨rest, rfl, rfl⟩
    · rintro (⟨rest', hrest, rfl⟩ | ⟨hnil, -⟩)
      · obtain ⟨rfl, rfl⟩ := List.append_singleton_inj.mp hrest
        exact ⟨rfl, rfl⟩
      · simp at hnil

theorem ended_concat_iff : Ended (steps ++ [last]) number ↔
    Ended steps number ∨ ∃ outcome, last = .finish number outcome ∧ number < (requestsOf 1 steps).length := by
  simp only [Ended, concat_eq_append_cons_iff]
  constructor
  · rintro ⟨before, outcome, after, ⟨rest, -, hsteps⟩ | ⟨-, rfl, heq⟩, hlt⟩
    · exact Or.inl ⟨before, outcome, rest, hsteps, hlt⟩
    · exact Or.inr ⟨outcome, heq.symm, hlt⟩
  · rintro (⟨before, outcome, rest, hsteps, hlt⟩ | ⟨outcome, heq, hlt⟩)
    · exact ⟨before, outcome, rest ++ [last], Or.inl ⟨rest, rfl, hsteps⟩, hlt⟩
    · exact ⟨steps, outcome, [], Or.inr ⟨rfl, rfl, heq.symm⟩, hlt⟩

theorem endsWith_concat_iff : EndsWith (steps ++ [last]) number outcome ↔
    EndsWith steps number outcome ∨
      last = .finish number outcome ∧ number < (requestsOf 1 steps).length ∧ ¬ Ended steps number := by
  simp only [EndsWith, concat_eq_append_cons_iff]
  constructor
  · rintro ⟨before, after, ⟨rest, -, hsteps⟩ | ⟨-, rfl, heq⟩, hfirst⟩
    · exact Or.inl ⟨before, rest, hsteps, hfirst⟩
    · exact Or.inr ⟨heq.symm, hfirst⟩
  · rintro (⟨before, rest, hsteps, hfirst⟩ | ⟨heq, hfirst⟩)
    · exact ⟨before, rest ++ [last], Or.inl ⟨rest, rfl, hsteps⟩, hfirst⟩
    · exact ⟨steps, [], Or.inr ⟨rfl, rfl, heq.symm⟩, hfirst⟩

theorem sums_summary (describe : ε → String) (request : Request) (outcome : Except ε Response) :
    Sums describe request outcome (summary request (Handles.told describe outcome)) := by
  cases outcome with
  | ok response =>
      refine ⟨rfl, rfl, rfl, fun _ h => ?_, fun _ h => (by cases h)⟩
      cases h
      exact ⟨rfl, rfl⟩
  | error e =>
      refine ⟨rfl, rfl, rfl, fun _ h => (by cases h), fun _ h => ?_⟩
      cases h
      exact ⟨rfl, rfl, rfl⟩

/-! ### One step and a run -/

namespace Handles

/-- Polling a future changes instances and calls on them at most. -/
theorem exists_start (handles : Handles ε) (number : Nat) : ∃ instances inner,
    handles.start number = { handles with instances := instances, inner := inner } := by
  unfold start
  split
  · split_ifs <;> exact ⟨_, _, rfl⟩
  · exact ⟨_, _, rfl⟩

/-- The handles hold what the steps say: the calls with their requests, the end of each call that has ended, and one
line for each of these ends. -/
structure Accounts (describe : ε → String) (steps : List (Step ε)) (handles : Handles ε) : Prop where
  held : handles.held.length = handlesAfter 1 steps
  calls : handles.calls.map Call.request = requestsOf 1 steps
  once : (handles.results.map Prod.fst).Nodup
  ended : ∀ number, number ∈ handles.results.map Prod.fst ↔ Ended steps number
  results : ∀ number outcome, (number, outcome) ∈ handles.results ↔ EndsWith steps number outcome
  log : List.Forall₂ (fun result event => ∃ request, (requestsOf 1 steps)[result.1]? = some request ∧
    Sums describe request result.2 event) handles.results handles.log

theorem accounts_fresh (describe : ε → String) : Accounts describe [] (fresh : Handles ε) := by
  refine ⟨rfl, rfl, List.nodup_nil, fun number => ?_, fun number outcome => ?_, .nil⟩
  · simp [fresh, Ended]
  · simp [fresh, EndsWith]

namespace Accounts

variable {handles after : Handles ε}

/-- A step that ends no call may change the handles and add calls, and leaves results and log alone. -/
theorem keep (h : Accounts describe steps handles) (hlast : ∀ number outcome, last ≠ .finish number outcome)
    (hresults : after.results = handles.results) (hlog : after.log = handles.log)
    (hheld : after.held.length = handlesAfter 1 (steps ++ [last]))
    (hcalls : after.calls.map Call.request = requestsOf 1 (steps ++ [last])) :
    Accounts describe (steps ++ [last]) after := by
  refine ⟨hheld, hcalls, hresults ▸ h.once, fun number => ?_, fun number outcome => ?_, ?_⟩
  · rw [hresults, h.ended, ended_concat_iff]
    simp [hlast]
  · rw [hresults, h.results, endsWith_concat_iff]
    simp [hlast]
  · rw [hresults, hlog]
    refine h.log.imp ?_
    rintro result event ⟨request, hrequest, hsums⟩
    refine ⟨request, ?_, hsums⟩
    rw [requestsOf_append, List.getElem?_append_left (List.getElem?_eq_some_iff.mp hrequest).1, hrequest]

theorem ready (h : Accounts describe steps handles) (handle : Nat) (answer : Except ε Unit) :
    Accounts describe (steps ++ [.ready handle answer]) (handles.step describe (.ready handle answer)) := by
  have hheld : handlesAfter 1 (steps ++ [.ready handle answer]) = handlesAfter 1 steps := by
    rw [handlesAfter_append]
    rfl
  have hcalls : requestsOf 1 (steps ++ [.ready handle answer]) = requestsOf 1 steps := by
    rw [requestsOf_append]
    exact List.append_nil _
  cases htarget : handles.held[handle]? <;> cases answer <;> simp only [Handles.step, htarget] <;>
    exact h.keep (by simp) rfl rfl (h.held.trans hheld.symm) (h.calls.trans hcalls.symm)

theorem call (h : Accounts describe steps handles) (handle : Nat) (request : Request) :
    Accounts describe (steps ++ [.call handle request]) (handles.step describe (.call handle request)) := by
  have hheld : handlesAfter 1 (steps ++ [.call handle request]) = handlesAfter 1 steps := by
    rw [handlesAfter_append]
    rfl
  have hcalls : requestsOf 1 (steps ++ [.call handle request]) =
      requestsOf 1 steps ++ if handle < handles.held.length then [request] else [] := by
    rw [requestsOf_append, h.held]
    simp [requestsOf]
  cases htarget : handles.held[handle]? with
  | some target =>
      simp only [Handles.step, htarget]
      refine h.keep (by simp) rfl rfl ?_ ?_
      · rw [List.length_set, h.held, hheld]
      · rw [List.map_append, h.calls, hcalls, if_pos (List.getElem?_eq_some_iff.mp htarget).1]
        rfl
  | none =>
      simp only [Handles.step, htarget]
      refine h.keep (by simp) rfl rfl (h.held.trans hheld.symm) ?_
      rw [h.calls, hcalls, if_neg (Nat.not_lt.mpr (List.getElem?_eq_none_iff.mp htarget)), List.append_nil]

theorem clone (h : Accounts describe steps handles) (handle : Nat) :
    Accounts describe (steps ++ [.clone handle]) (handles.step describe (.clone handle)) := by
  have hheld : handlesAfter 1 (steps ++ [.clone handle]) =
      if handle < handles.held.length then handles.held.length + 1 else handles.held.length := by
    rw [handlesAfter_append, h.held]
    rfl
  have hcalls : requestsOf 1 (steps ++ [.clone handle]) = requestsOf 1 steps := by
    rw [requestsOf_append]
    exact List.append_nil _
  cases htarget : handles.held[handle]? with
  | some target =>
      simp only [Handles.step, htarget]
      refine h.keep (by simp) rfl rfl ?_ (h.calls.trans hcalls.symm)
      rw [List.length_append, hheld, if_pos (List.getElem?_eq_some_iff.mp htarget).1]
      rfl
  | none =>
      simp only [Handles.step, htarget]
      refine h.keep (by simp) rfl rfl ?_ (h.calls.trans hcalls.symm)
      rw [hheld, if_neg (Nat.not_lt.mpr (List.getElem?_eq_none_iff.mp htarget))]

theorem poll (h : Accounts describe steps handles) (number : Nat) :
    Accounts describe (steps ++ [.poll number]) (handles.step describe (.poll number)) := by
  have hheld : handlesAfter 1 (steps ++ [.poll number]) = handlesAfter 1 steps := by
    rw [handlesAfter_append]
    rfl
  have hcalls : requestsOf 1 (steps ++ [.poll number]) = requestsOf 1 steps := by
    rw [requestsOf_append]
    exact List.append_nil _
  obtain ⟨instances, inner, hstart⟩ := exists_start handles number
  simp only [Handles.step, hstart]
  exact h.keep (by simp) rfl rfl (h.held.trans hheld.symm) (h.calls.trans hcalls.symm)

theorem lookup_eq_none_iff (h : Accounts describe steps handles) :
    handles.results.lookup number = none ↔ ¬ Ended steps number := by
  rw [← h.ended, List.lookup_eq_none_iff, List.mem_map]
  simp only [bne_iff_ne, not_exists, not_and]
  exact forall₂_congr fun result _ => ne_comm

theorem length_calls (h : Accounts describe steps handles) : handles.calls.length = (requestsOf 1 steps).length := by
  rw [← h.calls, List.length_map]

/-- The end of a call that is under way is what the caller is given, and adds its line. -/
theorem finish (h : Accounts describe steps handles) (number : Nat) (outcome : Except ε Response) :
    Accounts describe (steps ++ [.finish number outcome]) (handles.step describe (.finish number outcome)) := by
  have hheld : handlesAfter 1 (steps ++ [.finish number outcome]) = handlesAfter 1 steps := by
    rw [handlesAfter_append]
    rfl
  have hcalls : requestsOf 1 (steps ++ [.finish number outcome]) = requestsOf 1 steps := by
    rw [requestsOf_append]
    exact List.append_nil _
  by_cases hunder : number < (requestsOf 1 steps).length ∧ ¬ Ended steps number
  · obtain ⟨hlt, hended⟩ := hunder
    obtain ⟨call, hcall⟩ : ∃ call, handles.calls[number]? = some call :=
      ⟨_, List.getElem?_eq_getElem (h.length_calls ▸ hlt)⟩
    have hrequest : (requestsOf 1 steps)[number]? = some call.request := by
      rw [← h.calls, List.getElem?_map, hcall]
      rfl
    obtain ⟨instances, inner, hstart⟩ := exists_start handles number
    simp only [Handles.step, hcall, h.lookup_eq_none_iff.mpr hended, hstart]
    refine ⟨h.held.trans hheld.symm, h.calls.trans hcalls.symm, ?_, fun other => ?_, fun other result => ?_, ?_⟩
    · rw [List.map_append, List.map_singleton]
      exact List.nodup_append.mpr ⟨h.once, List.nodup_singleton _, by grind [h.ended]⟩
    · rw [List.map_append, List.mem_append, h.ended, ended_concat_iff]
      grind
    · rw [List.mem_append, h.results, endsWith_concat_iff]
      grind
    · rw [hcalls]
      exact List.rel_append h.log (.cons ⟨call.request, hrequest, sums_summary describe call.request outcome⟩ .nil)
  · have hsame : handles.step describe (.finish number outcome) = handles := by
      cases hcall : handles.calls[number]? <;> cases hlookup : handles.results.lookup number <;>
        simp only [Handles.step, hcall, hlookup]
      have hlt := (List.getElem?_eq_some_iff.mp hcall).1
      exact absurd ⟨h.length_calls ▸ hlt, h.lookup_eq_none_iff.mp hlookup⟩ hunder
    rw [hsame]
    refine ⟨h.held.trans hheld.symm, h.calls.trans hcalls.symm, h.once, fun other => ?_, fun other result => ?_, ?_⟩
    · rw [h.ended, ended_concat_iff]
      refine ⟨Or.inl, ?_⟩
      rintro (hother | ⟨result, heq, hlt⟩)
      · exact hother
      · cases heq
        exact not_not.mp fun hended => hunder ⟨hlt, hended⟩
    · rw [h.results, endsWith_concat_iff]
      refine ⟨Or.inl, ?_⟩
      rintro (hother | ⟨heq, hlt, hended⟩)
      · exact hother
      · cases heq
        exact absurd ⟨hlt, hended⟩ hunder
    · rw [hcalls]
      exact h.log

theorem step (h : Accounts describe steps handles) (next : Step ε) :
    Accounts describe (steps ++ [next]) (handles.step describe next) := by
  cases next with
  | ready handle answer => exact h.ready handle answer
  | call handle request => exact h.call handle request
  | clone handle => exact h.clone handle
  | poll number => exact h.poll number
  | finish number outcome => exact h.finish number outcome

end Accounts

theorem run_append (describe : ε → String) (handles : Handles ε) (steps more : List (Step ε)) :
    handles.run describe (steps ++ more) = (handles.run describe steps).run describe more := List.foldl_append

/-- After every run the handles hold what its steps say. -/
theorem accounts_run (describe : ε → String) (steps : List (Step ε)) :
    Accounts describe steps (run describe fresh steps) := by
  induction steps using List.reverseRecOn with
  | nil => exact accounts_fresh describe
  | append_singleton steps next ih =>
      rw [run_append]
      exact ih.step next

/-- Readiness that is refused leaves nothing behind. -/
theorem step_refused (describe : ε → String) (handles : Handles ε) (handle : Nat) (e : ε) :
    handles.step describe (.ready handle (.error e)) = handles := by
  cases htarget : handles.held[handle]? <;> simp only [Handles.step, htarget]

/-- One request through a handle that gets ready: the caller is given what the service behind answered, and the log
grows by the line of the request. -/
theorem Accounts.serve {handles : Handles ε} (h : Accounts describe steps handles) {handle : Nat}
    (hhandle : handle < handlesAfter 1 steps) (request : Request) (outcome : Except ε Response) :
    (handles.serve describe handle request (.ok ()) outcome).2 =
      (outcome, [summary request (told describe outcome)]) := by
  obtain ⟨target, htarget⟩ : ∃ target, handles.held[handle]? = some target :=
    ⟨_, List.getElem?_eq_getElem (h.held ▸ hhandle)⟩
  have hnew : handles.results.lookup handles.calls.length = none := by
    rw [h.lookup_eq_none_iff, h.length_calls]
    rintro ⟨before, outcome, after, hsteps, hlt⟩
    have hle := congrArg (fun steps => (requestsOf 1 steps).length) hsteps
    simp only [requestsOf_append, List.length_append] at hle
    omega
  simp [Handles.serve, stepsOf, run, Handles.step, htarget, hnew, Except.bind]

/-- The summary lines of every run. Each call that has ended has one line, with the method and the path of its own
request, and with the status of its response or the text of its failure; its caller is given the answer of the service
behind as it is. A request for which the service does not get ready leaves no line. -/
theorem run_sums_up (describe : ε → String) (steps : List (Step ε)) :
    Accounts describe steps (run describe fresh steps) ∧
    (∀ before handle e after, steps = before ++ .ready handle (.error e) :: after →
      run describe fresh steps = run describe fresh (before ++ after)) ∧
    (∀ handle request e outcome, serve describe (run describe fresh steps) handle request (.error e) outcome =
      (run describe fresh steps, .error e, [])) ∧
    ∀ handle request outcome, handle < handlesAfter 1 steps →
      ∃ event, Sums describe request outcome event ∧
        (serve describe (run describe fresh steps) handle request (.ok ()) outcome).2 = (outcome, [event]) := by
  have haccounts := accounts_run describe steps
  refine ⟨haccounts, ?_, ?_, ?_⟩
  · rintro before handle e after rfl
    rw [run_append, run_append]
    exact congrArg (fun handles => run describe handles after) (step_refused describe _ handle e)
  · intro handle request e outcome
    have hrun : run describe (run describe fresh steps) [.ready handle (.error e)] = run describe fresh steps :=
      step_refused describe _ handle e
    simp only [serve, stepsOf, hrun, List.drop_length]
    rfl
  · intro handle request outcome hhandle
    exact ⟨_, sums_summary describe request outcome, haccounts.serve hhandle request outcome⟩

def sentLogin : Request where
  method := "POST"
  uri := ⟨none, [], "/login".toList, none⟩
  headers := []
  body := []

def accepted : Response where
  status := 202
  headers := []
  body := []

/-- Two calls on two handles, the first of which ends last, and fails; a third request is turned away. -/
def crossed : List (Step String) :=
  [.clone 0, .ready 0 (.ok ()), .call 0 plainGet, .ready 1 (.ok ()), .call 1 sentLogin, .ready 0 (.error "busy"),
    .finish 1 (.ok accepted), .finish 0 (.error "connection reset")]

/-- The lines of crossed calls stand in the order of the ends, each about its own request. -/
theorem run_sums_up_crossed : 1 < handlesAfter 1 crossed ∧
    (∃ first second, (run id fresh crossed).log = [first, second] ∧ Sums id sentLogin (.ok accepted) first ∧
      Sums id plainGet (.error "connection reset") second) ∧
    ∃ event, Sums id sentLogin (.ok accepted) event ∧
      (serve id (run id fresh crossed) 1 sentLogin (.ok ()) (.ok accepted)).2 = (.ok accepted, [event]) := by
  obtain ⟨haccounts, -, -, hserve⟩ := run_sums_up id crossed
  have hresults : (run id fresh crossed).results = [(1, .ok accepted), (0, .error "connection reset")] := rfl
  have hlog := haccounts.log
  rw [hresults] at hlog
  refine ⟨by decide, ?_, hserve 1 sentLogin (.ok accepted) (by decide)⟩
  generalize (run id fresh crossed).log = log at hlog ⊢
  rcases hlog with _ | ⟨⟨request, hfirst, hsums⟩, _ | ⟨⟨request', hsecond, hsums'⟩, _ | _⟩⟩
  cases hfirst
  cases hsecond
  exact ⟨_, _, rfl, hsums, hsums'⟩

end Handles
end RouteBook.Service
