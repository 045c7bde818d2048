import RouteBook.Service.Tracing

/-! Handles on a service that sums up every call. Each handle holds one instance of the service behind it. A call
takes that instance away and leaves a clone in its place, which has to be made ready before the next call. What the
caller gets is a future, which calls the instance when it is polled for the first time; a future that is never polled
calls nothing. What the service behind answers is up to it: its answers come with the steps, and calls may begin and
end in any order. -/

namespace RouteBook.Service

open Http (Request Response)
open Log (Event)

/-- A call of a handle: its future has the instance of the service behind to itself. -/
structure Call where
  /-- The number of the instance. -/
  target : Nat
  request : Request
  deriving DecidableEq, Repr

/-- A call on an instance of the service behind. -/
structure Inner extends Call where
  /-- The number of the call of a handle that it is made for. -/
  number : Nat
  /-- The instance had been made ready, and not been called since. -/
  granted : Bool
  deriving DecidableEq, Repr

/-- What is done with handles, which have numbers, and what the service behind answers. -/
inductive Step (ε : Type) where
  /-- A handle is asked to get ready. -/
  | ready (handle : Nat) (answer : Except ε Unit)
  | call (handle : Nat) (request : Request)
  | clone (handle : Nat)
  /-- The future of a call, by its number, is polled and has no answer yet. -/
  | poll (call : Nat)
  /-- The future of a call, by its number, is polled and comes to its end. -/
  | finish (call : Nat) (outcome : Except ε Response)

structure Handles (ε : Type) where
  /-- For each instance whether it is ready for a call. -/
  instances : List Bool
  /-- For each handle the number of the instance that it holds. -/
  held : List Nat
  /-- The calls of handles, in the order in which they were made. -/
  calls : List Call
  /-- The calls on instances, in the order in which they were made. -/
  inner : List Inner
  /-- What the callers were given, by the number of the call, in the order in which the calls ended. -/
  results : List (Nat × Except ε Response)
  log : List Event

namespace Handles

/-- One handle on one instance, which is not ready. -/
def fresh : Handles ε := ⟨[false], [0], [], [], [], []⟩

/-- What a summary tells about the end of a call. -/
def told (describe : ε → String) : Except ε Response → Except String Nat
  | .ok response => .ok response.status
  | .error e => .error (describe e)

/-- The handles once the future of a call is polled: the first time it calls its instance. -/
def start (handles : Handles ε) (number : Nat) : Handles ε :=
  match handles.calls[number]? with
  | some call =>
    if number ∈ handles.inner.map Inner.number then handles
    else
      { handles with
        instances := handles.instances.set call.target false
        inner := handles.inner ++
          [{ call with number := number, granted := handles.instances[call.target]?.getD false }] }
  | none => handles

/-- The handles after a step; `describe` gives the text of a failure. Readiness that is refused changes nothing,
and neither does a step on a handle or a call that does not exist or has ended. -/
def step (describe : ε → String) (handles : Handles ε) : Step ε → Handles ε
  | .ready handle answer =>
    match handles.held[handle]?, answer with
    | some target, .ok () => { handles with instances := handles.instances.set target true }
    | _, _ => handles
  | .call handle request =>
    match handles.held[handle]? with
    | some target =>
      { handles with
        instances := handles.instances ++ [false]
        held := handles.held.set handle handles.instances.length
        calls := handles.calls ++ [⟨target, request⟩] }
    | none => handles
  | .clone handle =>
    match handles.held[handle]? with
    | some _ =>
      { handles with instances := handles.instances ++ [false], held := handles.held ++ [handles.instances.length] }
    | none => handles
  | .poll number => handles.start number
  | .finish number outcome =>
    match handles.calls[number]?, handles.results.lookup number with
    | some call, none =>
      { handles.start number with
        results := handles.results ++ [(number, outcome)]
        log := handles.log ++ [summary call.request (told describe outcome)] }
    | _, _ => handles

def run (describe : ε → String) (handles : Handles ε) (steps : List (Step ε)) : Handles ε :=
  steps.foldl (step describe) handles

/-- The steps of one request through a handle, from the question whether it is ready to the end of the call. A
handle that does not get ready is not called. -/
def stepsOf (handles : Handles ε) (handle : Nat) (request : Request) (readiness : Except ε Unit)
    (outcome : Except ε Response) : List (Step ε) :=
  match readiness with
  | .error e => [.ready handle (.error e)]
  | .ok () => [.ready handle (.ok ()), .call handle request, .finish handles.calls.length outcome]

/-- One request through a handle: the handles after it, what the caller is given, and the events of the request. -/
def serve (describe : ε → String) (handles : Handles ε) (handle : Nat) (request : Request)
    (readiness : Except ε Unit) (outcome : Except ε Response) :
    Handles ε × Except ε Response × List Event :=
  let after := handles.run describe (handles.stepsOf handle request readiness outcome)
  (after, readiness.bind fun _ => outcome, after.log.drop handles.log.length)

end Handles
end RouteBook.Service
