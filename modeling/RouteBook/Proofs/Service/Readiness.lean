import RouteBook.Proofs.Service.Interleaving

/-! Readiness over any run. An instance of the service behind is held by one handle until a call takes it, and then by the
future of this call alone. So where handles are called only after they were made ready, every call on an instance is made on
the one that was made ready for it, no instance is called twice, and the clone that a call leaves behind is not ready before
its handle is asked again. When handles were made ready and called, and which futures were polled, is read off the list of
steps alone; a handle that is asked and gets no answer yet has made no step. -/

namespace RouteBook.Service

open Http (Request Response)
open Log (Event)
open scoped List

variable {ε : Type} {describe : ε → String} {steps : List (Step ε)} {last : Step ε} {handle number : Nat}

/-! ### What the steps say -/

/-- A handle that exists was made ready, and has not been called since. -/
def Polled (steps : List (Step ε)) (handle : Nat) : Prop :=
  ∃ before after, steps = before ++ .ready handle (.ok ()) :: after ∧ handle < handlesAfter 1 before ∧
    ∀ request, .call handle request ∉ after

/-- Every handle that is called was made ready since its last call. -/
def Disciplined (steps : List (Step ε)) : Prop :=
  ∀ before handle request after, steps = before ++ .call handle request :: after → Polled before handle

/-- The call whose future a step polls. -/
def Step.polls? : Step ε → Option Nat
  | .poll number | .finish number _ => some number
  | _ => none

/-- The future of a call was polled after the call was made. -/
def Begun (steps : List (Step ε)) (number : Nat) : Prop :=
  ∃ before step after, steps = before ++ step :: after ∧ step.polls? = some number ∧ number < (requestsOf 1 before).length

/-- A call, by its number, was made through a handle that was made ready for it. -/
def Trusted (steps : List (Step ε)) (number : Nat) : Prop :=
  ∃ before handle request after, steps = before ++ .call handle request :: after ∧ number = (requestsOf 1 before).length ∧
    Polled before handle

theorem polled_concat_iff : Polled (steps ++ [last]) handle ↔
    last = .ready handle (.ok ()) ∧ handle < handlesAfter 1 steps ∨
      Polled steps handle ∧ ∀ request, last ≠ .call handle request := by
  simp only [Polled, concat_eq_append_cons_iff]
  constructor
  · rintro ⟨before, after, ⟨rest, rfl, hsteps⟩ | ⟨-, rfl, heq⟩, hlt, hcall⟩
    · simp only [List.mem_append, List.mem_singleton, not_or] at hcall
      have hrest : ∀ request, .call handle request ∉ rest := fun request => (hcall request).1
      exact Or.inr ⟨⟨before, rest, hsteps, hlt, hrest⟩, fun request => Ne.symm (hcall request).2⟩
    · exact Or.inl ⟨heq.symm, hlt⟩
  · rintro (⟨heq, hlt⟩ | ⟨⟨before, rest, hsteps, hlt, hcall⟩, hlast⟩)
    · exact ⟨steps, [], Or.inr ⟨rfl, rfl, heq.symm⟩, hlt, by simp⟩
    · refine ⟨before, rest ++ [last], Or.inl ⟨rest, rfl, hsteps⟩, hlt, fun request => ?_⟩
      simp only [List.mem_append, List.mem_singleton, not_or]
      exact ⟨hcall request, Ne.symm (hlast request)⟩

theorem disciplined_concat_iff : Disciplined (steps ++ [last]) ↔
    Disciplined steps ∧ ∀ handle request, last = .call handle request → Polled steps handle := by
  simp only [Disciplined, concat_eq_append_cons_iff]
  constructor
  · intro h
    refine ⟨fun before handle request after hsteps => ?_, fun handle request heq => ?_⟩
    · exact h before handle request (after ++ [last]) (Or.inl ⟨after, rfl, hsteps⟩)
    · exact h steps handle request [] (Or.inr ⟨rfl, rfl, heq.symm⟩)
  · rintro ⟨hsteps, hlast⟩ before handle request after (⟨rest, -, heq⟩ | ⟨-, rfl, heq⟩)
    · exact hsteps before handle request rest heq
    · exact hlast handle request heq.symm

theorem le_handlesAfter (count : Nat) (steps : List (Step ε)) : count ≤ handlesAfter count steps := by
  induction steps generalizing count with
  | nil => exact le_rfl
  | cons step steps ih =>
      cases step with
      | clone handle =>
          rw [handlesAfter]
          split_ifs
          · exact (Nat.le_succ count).trans (ih _)
          · exact ih _
      | ready | call | poll | finish => exact ih count

theorem Polled.lt (h : Polled steps handle) : handle < handlesAfter 1 steps := by
  obtain ⟨before, after, rfl, hlt, -⟩ := h
  rw [handlesAfter_append]
  exact hlt.trans_le (le_handlesAfter _ _)

/-- After a call a handle has to be made ready again. -/
theorem Polled.mem {before more : List (Step ε)} {request : Request}
    (h : Polled (before ++ .call handle request :: more) handle) : .ready handle (.ok ()) ∈ more := by
  induction more using List.reverseRecOn with
  | nil =>
      rcases polled_concat_iff.mp h with ⟨heq, -⟩ | ⟨-, hne⟩
      · cases heq
      · exact absurd rfl (hne request)
  | append_singleton more next ih =>
      rw [← List.cons_append, ← List.append_assoc] at h
      rcases polled_concat_iff.mp h with ⟨rfl, -⟩ | ⟨hpolled, -⟩
      · simp
      · exact List.mem_append_left _ (ih hpolled)

theorem begun_concat_iff : Begun (steps ++ [last]) number ↔
    Begun steps number ∨ last.polls? = some number ∧ number < (requestsOf 1 steps).length := by
  simp only [Begun, concat_eq_append_cons_iff]
  constructor
  · rintro ⟨before, step, after, ⟨rest, -, hsteps⟩ | ⟨-, rfl, rfl⟩, hpolls, hlt⟩
    · exact Or.inl ⟨before, step, rest, hsteps, hpolls, hlt⟩
    · exact Or.inr ⟨hpolls, hlt⟩
  · rintro (⟨before, step, rest, hsteps, hpolls, hlt⟩ | ⟨hpolls, hlt⟩)
    · exact ⟨before, step, rest ++ [last], Or.inl ⟨rest, rfl, hsteps⟩, hpolls, hlt⟩
    · exact ⟨steps, last, [], Or.inr ⟨rfl, rfl, rfl⟩, hpolls, hlt⟩

theorem begun_concat_of_not_poll (h : last.polls? = none) : Begun (steps ++ [last]) number ↔ Begun steps number := by
  simp [begun_concat_iff, h]

theorem Begun.lt (h : Begun steps number) : number < (requestsOf 1 steps).length := by
  obtain ⟨before, step, after, rfl, -, hlt⟩ := h
  rw [requestsOf_append, List.length_append]
  exact hlt.trans_le (Nat.le_add_right _ _)

/-- A call that came to its end was polled then. -/
theorem Ended.begun (h : Ended steps number) : Begun steps number := by
  obtain ⟨before, outcome, after, rfl, hlt⟩ := h
  exact ⟨before, .finish number outcome, after, rfl, rfl, hlt⟩

theorem trusted_concat_iff : Trusted (steps ++ [last]) number ↔
    Trusted steps number ∨
      ∃ handle request, last = .call handle request ∧ number = (requestsOf 1 steps).length ∧ Polled steps handle := by
  simp only [Trusted, concat_eq_append_cons_iff]
  constructor
  · rintro ⟨before, handle, request, after, ⟨rest, -, hsteps⟩ | ⟨-, rfl, heq⟩, hnumber, hpolled⟩
    · exact Or.inl ⟨before, handle, request, rest, hsteps, hnumber, hpolled⟩
    · exact Or.inr ⟨handle, request, heq.symm, hnumber, hpolled⟩
  · rintro (⟨before, handle, request, rest, hsteps, hnumber, hpolled⟩ | ⟨handle, request, heq, hnumber, hpolled⟩)
    · exact ⟨before, handle, request, rest ++ [last], Or.inl ⟨rest, rfl, hsteps⟩, hnumber, hpolled⟩
    · exact ⟨steps, handle, request, [], Or.inr ⟨rfl, rfl, heq.symm⟩, hnumber, hpolled⟩

theorem trusted_concat_of_not_call (h : ∀ handle request, last = .call handle request → ¬Polled steps handle) :
    Trusted (steps ++ [last]) number ↔ Trusted steps number := by
  rw [trusted_concat_iff, or_iff_left]
  rintro ⟨handle, request, heq, -, hpolled⟩
  exact h handle request heq hpolled

theorem Trusted.lt (h : Trusted steps number) : number < (requestsOf 1 steps).length := by
  obtain ⟨before, handle, request, after, rfl, rfl, hpolled⟩ := h
  rw [requestsOf_append, requestsOf, if_pos hpolled.lt]
  simp

/-! ### One step -/

namespace Handles

variable {handles : Handles ε} {target : Nat}

/-- The call of a handle that a step makes, if it makes one. -/
def callOf? (handles : Handles ε) : Step ε → Option Call
  | .call handle request => handles.held[handle]?.map fun target => ⟨target, request⟩
  | _ => none

theorem calls_step (describe : ε → String) (handles : Handles ε) (next : Step ε) :
    (handles.step describe next).calls = handles.calls ++ (handles.callOf? next).toList := by
  cases next with
  | ready handle answer =>
      cases htarget : handles.held[handle]? <;> cases answer <;> simp [step, callOf?, htarget]
  | call handle request => cases htarget : handles.held[handle]? <;> simp [step, callOf?, htarget]
  | clone handle => cases htarget : handles.held[handle]? <;> simp [step, callOf?, htarget]
  | poll number =>
      obtain ⟨instances, inner, hstart⟩ := exists_start handles number
      simp [step, callOf?, hstart]
  | finish number outcome =>
      obtain ⟨instances, inner, hstart⟩ := exists_start handles number
      cases hcall : handles.calls[number]? <;> cases hlookup : handles.results.lookup number <;>
        simp [step, callOf?, hcall, hlookup, hstart]

/-- A handle keeps its instance until it is called. -/
theorem held_step {next : Step ε} (h : handles.held[handle]? = some target)
    (hnext : ∀ request, next ≠ .call handle request) :
    (handles.step describe next).held[handle]? = some target := by
  cases next with
  | ready other answer =>
      cases hother : handles.held[other]? <;> cases answer <;> simpa only [step, hother] using h
  | call other request =>
      have hne : other ≠ handle := fun heq => hnext request (by rw [heq])
      cases hother : handles.held[other]? with
      | none => simpa only [step, hother] using h
      | some found => simpa only [step, hother, List.getElem?_set_ne hne] using h
  | clone other =>
      cases hother : handles.held[other]? with
      | none => simpa only [step, hother] using h
      | some found =>
          simp only [step, hother]
          rw [List.getElem?_append_left (List.getElem?_eq_some_iff.mp h).1, h]
  | poll number =>
      obtain ⟨instances, inner, hstart⟩ := exists_start handles number
      simpa only [step, hstart] using h
  | finish number outcome =>
      obtain ⟨instances, inner, hstart⟩ := exists_start handles number
      cases hcall : handles.calls[number]? <;> cases hlookup : handles.results.lookup number <;>
        simpa only [step, hcall, hlookup, hstart] using h

theorem held_run {more : List (Step ε)} (h : handles.held[handle]? = some target)
    (hmore : ∀ request, .call handle request ∉ more) : (handles.run describe more).held[handle]? = some target := by
  induction more generalizing handles with
  | nil => exact h
  | cons next more ih =>
      have hnext : ∀ request, next ≠ .call handle request :=
        fun request heq => hmore request (heq ▸ List.mem_cons_self)
      exact ih (held_step h hnext) fun request hmem => hmore request (List.mem_cons_of_mem next hmem)

/-- A call leaves a new instance in its handle. -/
theorem held_call (h : handles.held[handle]? = some target) (request : Request) :
    (handles.step describe (.call handle request)).held[handle]? = some handles.instances.length := by
  simp only [step, h]
  exact List.getElem?_set_self (List.getElem?_eq_some_iff.mp h).1

theorem run_concat (describe : ε → String) (handles : Handles ε) (steps : List (Step ε)) (next : Step ε) :
    handles.run describe (steps ++ [next]) = (handles.run describe steps).step describe next := by
  rw [run_append]
  rfl

/-- Every instance is held by one handle or was taken by one call. That of a handle is ready exactly if the handle was made
ready since its last call, and that of a call whose future was not polled yet exactly if the call was made through such a
handle. Each future that was polled has made one call, on the instance of its own call. -/
structure Wired (describe : ε → String) (steps : List (Step ε)) (handles : Handles ε) : Prop
    extends Accounts describe steps handles where
  placed : (handles.calls.map Call.target ++ handles.held).Perm (List.range handles.instances.length)
  ready : ∀ handle target, handles.held[handle]? = some target →
    (handles.instances[target]? = some true ↔ Polled steps handle)
  waiting : ∀ number call, handles.calls[number]? = some call → ¬Begun steps number →
    (handles.instances[call.target]? = some true ↔ Trusted steps number)
  begun : ∀ number, number ∈ handles.inner.map Inner.number ↔ Begun steps number
  single : (handles.inner.map Inner.number).Nodup
  made : ∀ inner ∈ handles.inner, handles.calls[inner.number]? = some inner.toCall ∧
    (inner.granted = true ↔ Trusted steps inner.number)

theorem wired_fresh (describe : ε → String) : Wired describe [] (fresh : Handles ε) := by
  refine ⟨accounts_fresh describe, .refl _, fun handle target htarget => ?_, fun number call hcall => ?_, fun number => ?_,
    List.nodup_nil, fun inner hinner => ?_⟩
  · have hnone : ¬Polled ([] : List (Step ε)) handle := by simp [Polled]
    obtain ⟨hlt, rfl⟩ := List.getElem?_eq_some_iff.mp htarget
    obtain rfl : handle = 0 := Nat.lt_one_iff.mp hlt
    simp [fresh, hnone]
  · simp [fresh] at hcall
  · simp [fresh, Begun]
  · simp [fresh] at hinner

namespace Wired

theorem nodup (h : Wired describe steps handles) : (handles.calls.map Call.target ++ handles.held).Nodup :=
  h.placed.nodup_iff.mpr List.nodup_range

theorem lt_of_held (h : Wired describe steps handles) (htarget : handles.held[handle]? = some target) :
    target < handles.instances.length :=
  List.mem_range.mp (h.placed.subset (List.mem_append_right _ (List.mem_of_getElem? htarget)))

theorem lt_of_call (h : Wired describe steps handles) {call : Call} (hcall : handles.calls[number]? = some call) :
    call.target < handles.instances.length :=
  List.mem_range.mp (h.placed.subset (List.mem_append_left _ (List.mem_map_of_mem (List.mem_of_getElem? hcall))))

theorem lt_handlesAfter (h : Wired describe steps handles) (htarget : handles.held[handle]? = some target) :
    handle < handlesAfter 1 steps := h.held ▸ (List.getElem?_eq_some_iff.mp htarget).1

/-- No two handles hold one instance. -/
theorem eq_of_held (h : Wired describe steps handles) {other : Nat} (htarget : handles.held[handle]? = some target)
    (hother : handles.held[other]? = some target) : handle = other := by
  have hlt := (List.getElem?_eq_some_iff.mp htarget).1
  exact (List.getElem?_inj hlt (List.nodup_append.mp h.nodup).2.1).mp (htarget.trans hother.symm)

/-- No two calls have one instance. -/
theorem eq_of_call (h : Wired describe steps handles) {other : Nat} {call call' : Call}
    (hcall : handles.calls[number]? = some call) (hother : handles.calls[other]? = some call')
    (hsame : call.target = call'.target) : number = other := by
  have hlt : number < (handles.calls.map Call.target).length := by
    rw [List.length_map]
    exact (List.getElem?_eq_some_iff.mp hcall).1
  refine (List.getElem?_inj hlt (List.nodup_append.mp h.nodup).1).mp ?_
  rw [List.getElem?_map, List.getElem?_map, hcall, hother, Option.map_some, Option.map_some, hsame]

/-- An instance that a call took is not held by a handle. -/
theorem ne_of_call (h : Wired describe steps handles) {call : Call} (hcall : handles.calls[number]? = some call)
    (htarget : handles.held[handle]? = some target) : call.target ≠ target :=
  (List.nodup_append.mp h.nodup).2.2 _ (List.mem_map_of_mem (List.mem_of_getElem? hcall)) _ (List.mem_of_getElem? htarget)

/-- A step that moves no instance, makes no instance of a handle ready, and polls no future for the first time. -/
theorem keep (h : Wired describe steps handles) {next : Step ε} {results : List (Nat × Except ε Response)}
    {log : List Event} (hsame : handles.step describe next = { handles with results := results, log := log })
    (hnext : ∀ handle < handles.held.length, next ≠ .ready handle (.ok ()) ∧ ∀ request, next ≠ .call handle request)
    (hpolls : ∀ number < (requestsOf 1 steps).length, next.polls? = some number → Begun steps number) :
    Wired describe (steps ++ [next]) (handles.step describe next) := by
  have hbegun : ∀ number, Begun (steps ++ [next]) number ↔ Begun steps number := by
    intro number
    rw [begun_concat_iff]
    exact ⟨fun hcase => hcase.elim id fun hnew => hpolls number hnew.2 hnew.1, Or.inl⟩
  have htrusted : ∀ number, Trusted (steps ++ [next]) number ↔ Trusted steps number := fun number =>
    trusted_concat_of_not_call fun handle request heq hpolled =>
      (hnext handle (h.held ▸ hpolled.lt)).2 request heq
  have haccounts := h.toAccounts.step next
  rw [hsame] at haccounts ⊢
  refine ⟨haccounts, h.placed, fun handle target htarget => ?_, ?_, ?_, h.single, ?_⟩
  · obtain ⟨hready, hcall⟩ := hnext handle (List.getElem?_eq_some_iff.mp htarget).1
    rw [h.ready handle target htarget, polled_concat_iff]
    simp [hready, hcall]
  · simpa only [hbegun, htrusted] using h.waiting
  · simpa only [hbegun] using h.begun
  · simpa only [htrusted] using h.made

/-- A handle that gets ready makes its own instance ready, and no other. -/
theorem makeReady (h : Wired describe steps handles) (htarget : handles.held[handle]? = some target) :
    Wired describe (steps ++ [.ready handle (.ok ())]) (handles.step describe (.ready handle (.ok ()))) := by
  have hbegun : ∀ number, Begun (steps ++ [.ready handle (.ok ())]) number ↔ Begun steps number :=
    fun number => begun_concat_of_not_poll rfl
  have htrusted : ∀ number, Trusted (steps ++ [.ready handle (.ok ())]) number ↔ Trusted steps number :=
    fun number => trusted_concat_of_not_call (by simp)
  have haccounts := h.toAccounts.step (.ready handle (.ok ()))
  simp only [Handles.step, htarget] at haccounts ⊢
  refine ⟨haccounts, ?_, fun other found hfound => ?_, fun number call hcall hnot => ?_, ?_, h.single, ?_⟩
  · rw [List.length_set]
    exact h.placed
  · rw [polled_concat_iff]
    by_cases heq : handle = other
    · subst heq
      obtain rfl : target = found := Option.some.inj (htarget.symm.trans hfound)
      simp [h.lt_of_held htarget, h.lt_handlesAfter htarget]
    · have hne : target ≠ found := fun hsame => heq (h.eq_of_held htarget (hsame ▸ hfound))
      rw [List.getElem?_set_ne hne, h.ready other found hfound]
      simp [heq]
  · rw [hbegun] at hnot
    rw [List.getElem?_set_ne (h.ne_of_call hcall htarget).symm, h.waiting number call hcall hnot, htrusted]
  · simpa only [hbegun] using h.begun
  · simpa only [htrusted] using h.made

/-- A call takes the instance of its handle away as it is, and leaves one that is not ready. -/
theorem call (h : Wired describe steps handles) (htarget : handles.held[handle]? = some target) (request : Request) :
    Wired describe (steps ++ [.call handle request]) (handles.step describe (.call handle request)) := by
  have hbegun : ∀ number, Begun (steps ++ [.call handle request]) number ↔ Begun steps number :=
    fun number => begun_concat_of_not_poll rfl
  have htrusted : ∀ number < handles.calls.length,
      (Trusted (steps ++ [.call handle request]) number ↔ Trusted steps number) := by
    intro number hlt
    rw [h.length_calls] at hlt
    rw [trusted_concat_iff, or_iff_left]
    rintro ⟨-, -, -, rfl, -⟩
    exact absurd hlt (Nat.lt_irrefl _)
  have haccounts := h.toAccounts.step (.call handle request)
  simp only [Handles.step, htarget] at haccounts ⊢
  refine ⟨haccounts, ?_, fun other found hfound => ?_, fun number call hcall hnot => ?_, ?_, h.single, fun inner hinner => ?_⟩
  · simp only [List.map_append, List.map_singleton, List.length_append, List.length_singleton, List.range_succ]
    obtain ⟨hlt, rfl⟩ := List.getElem?_eq_some_iff.mp htarget
    have hswap : (handles.held[handle] :: handles.held.set handle handles.instances.length).Perm
        (handles.instances.length :: handles.held) :=
      calc handles.held[handle] :: handles.held.set handle handles.instances.length
        _ ~ handles.held[handle] :: handles.instances.length :: handles.held.eraseIdx handle :=
          (List.set_perm_cons_eraseIdx hlt _).cons _
        _ ~ handles.instances.length :: handles.held[handle] :: handles.held.eraseIdx handle := .swap _ _ _
        _ ~ handles.instances.length :: handles.held := (List.getElem_cons_eraseIdx_perm hlt).cons _
    rw [List.append_assoc, List.singleton_append]
    calc handles.calls.map Call.target ++ handles.held[handle] :: handles.held.set handle handles.instances.length
      _ ~ handles.calls.map Call.target ++ handles.instances.length :: handles.held := hswap.append_left _
      _ ~ handles.instances.length :: (handles.calls.map Call.target ++ handles.held) := List.perm_middle
      _ ~ handles.instances.length :: List.range handles.instances.length := h.placed.cons _
      _ ~ List.range handles.instances.length ++ [handles.instances.length] := (List.perm_append_singleton _ _).symm
  · rw [polled_concat_iff]
    by_cases heq : handle = other
    · subst heq
      rw [List.getElem?_set_self (List.getElem?_eq_some_iff.mp htarget).1] at hfound
      obtain rfl := Option.some.inj hfound
      simp
    · rw [List.getElem?_set_ne heq] at hfound
      rw [List.getElem?_append_left (h.lt_of_held hfound), h.ready other found hfound]
      simp [heq]
  · rw [hbegun] at hnot
    by_cases hold : number < handles.calls.length
    · rw [List.getElem?_append_left hold] at hcall
      rw [List.getElem?_append_left (h.lt_of_call hcall), h.waiting number call hcall hnot, htrusted number hold]
    · -- The call that is made now: its instance is as ready as it was in the handle.
      rw [List.getElem?_append_right (not_lt.mp hold), List.getElem?_singleton, Option.ite_none_right_eq_some] at hcall
      obtain ⟨hnumber, hcall⟩ := hcall
      obtain rfl := Option.some.inj hcall
      obtain rfl : number = (requestsOf 1 steps).length := by
        rw [← h.length_calls]
        omega
      have hnew : ¬Trusted steps (requestsOf 1 steps).length := fun htrusted => Nat.lt_irrefl _ htrusted.lt
      rw [List.getElem?_append_left (h.lt_of_held htarget), h.ready handle target htarget, trusted_concat_iff]
      simp [hnew]
  · simpa only [hbegun] using h.begun
  · obtain ⟨hcall, hgranted⟩ := h.made inner hinner
    have hlt := (List.getElem?_eq_some_iff.mp hcall).1
    exact ⟨by rw [List.getElem?_append_left hlt, hcall], by rw [hgranted, htrusted _ hlt]⟩

/-- A clone has an instance of its own, which is not ready. -/
theorem clone (h : Wired describe steps handles) (htarget : handles.held[handle]? = some target) :
    Wired describe (steps ++ [.clone handle]) (handles.step describe (.clone handle)) := by
  have hbegun : ∀ number, Begun (steps ++ [.clone handle]) number ↔ Begun steps number :=
    fun number => begun_concat_of_not_poll rfl
  have htrusted : ∀ number, Trusted (steps ++ [.clone handle]) number ↔ Trusted steps number :=
    fun number => trusted_concat_of_not_call (by simp)
  have haccounts := h.toAccounts.step (.clone handle)
  simp only [Handles.step, htarget] at haccounts ⊢
  refine ⟨haccounts, ?_, fun other found hfound => ?_, fun number call hcall hnot => ?_, ?_, h.single, ?_⟩
  · simp only [List.length_append, List.length_singleton, List.range_succ]
    rw [← List.append_assoc]
    exact h.placed.append_right _
  · have hpolled : Polled (steps ++ [.clone handle]) other ↔ Polled steps other := by simp [polled_concat_iff]
    rw [hpolled]
    by_cases hold : other < handles.held.length
    · rw [List.getElem?_append_left hold] at hfound
      rw [List.getElem?_append_left (h.lt_of_held hfound), h.ready other found hfound]
    · have hnew : ¬Polled steps other := fun hpolled => hold (h.held ▸ hpolled.lt)
      rw [List.getElem?_append_right (not_lt.mp hold), List.getElem?_singleton, Option.ite_none_right_eq_some] at hfound
      obtain ⟨-, hfound⟩ := hfound
      obtain rfl := Option.some.inj hfound
      simp [hnew]
  · rw [hbegun] at hnot
    rw [List.getElem?_append_left (h.lt_of_call hcall), h.waiting number call hcall hnot, htrusted]
  · simpa only [hbegun] using h.begun
  · simpa only [htrusted] using h.made

/-- A future that is polled for the first time calls the instance of its call, which is as ready as it was then. -/
theorem firstPoll (h : Wired describe steps handles) {next : Step ε} {call : Call} {results : List (Nat × Except ε Response)}
    {log : List Event} (hcall : handles.calls[number]? = some call) (hnot : ¬Begun steps number)
    (hpolls : next.polls? = some number)
    (hstep : handles.step describe next = { handles.start number with results := results, log := log }) :
    Wired describe (steps ++ [next]) (handles.step describe next) := by
  have hready : ∀ handle, next ≠ .ready handle (.ok ()) := by
    rintro handle rfl
    cases hpolls
  have hnext : ∀ handle request, next ≠ .call handle request := by
    rintro handle request rfl
    cases hpolls
  have htrusted : ∀ number, Trusted (steps ++ [next]) number ↔ Trusted steps number := fun number =>
    trusted_concat_of_not_call fun handle request heq => absurd heq (hnext handle request)
  have hbegun : ∀ other, Begun (steps ++ [next]) other ↔ Begun steps other ∨ other = number := by
    intro other
    have hlt : number < (requestsOf 1 steps).length := h.length_calls ▸ (List.getElem?_eq_some_iff.mp hcall).1
    rw [begun_concat_iff, hpolls, Option.some.injEq]
    exact or_congr_right ⟨fun hother => hother.1.symm, fun hother => ⟨hother.symm, hother ▸ hlt⟩⟩
  have hfree : number ∉ handles.inner.map Inner.number := (h.begun number).not.mpr hnot
  have haccounts := h.toAccounts.step next
  rw [hstep] at haccounts ⊢
  simp only [start, hcall, if_neg hfree] at haccounts ⊢
  refine ⟨haccounts, ?_, fun handle target htarget => ?_, fun other call' hother hnot' => ?_, fun other => ?_, ?_,
    fun inner hinner => ?_⟩
  · rw [List.length_set]
    exact h.placed
  · have hpolled : Polled (steps ++ [next]) handle ↔ Polled steps handle := by
      simp [polled_concat_iff, hready, hnext]
    rw [List.getElem?_set_ne (h.ne_of_call hcall htarget), h.ready handle target htarget, hpolled]
  · rw [hbegun, not_or] at hnot'
    have hne : call.target ≠ call'.target := fun hsame => hnot'.2 (h.eq_of_call hcall hother hsame).symm
    rw [List.getElem?_set_ne hne, h.waiting other call' hother hnot'.1, htrusted]
  · rw [List.map_append, List.mem_append, h.begun, hbegun, List.map_singleton, List.mem_singleton]
  · rw [List.map_append, List.map_singleton]
    refine List.nodup_append.mpr ⟨h.single, List.nodup_singleton _, ?_⟩
    rintro other hother new hnew rfl
    obtain rfl : other = number := List.mem_singleton.mp hnew
    exact hfree hother
  · rw [htrusted]
    rcases List.mem_append.mp hinner with hinner | hinner
    · exact h.made inner hinner
    · obtain rfl := List.mem_singleton.mp hinner
      refine ⟨hcall, ?_⟩
      rw [← h.waiting number call hcall hnot, List.getElem?_eq_getElem (h.lt_of_call hcall)]
      simp

/-- A future that was polled before calls nothing again. -/
theorem start_of_begun (h : Wired describe steps handles) (hbegun : Begun steps number) : handles.start number = handles := by
  unfold start
  split
  · exact if_pos ((h.begun number).mpr hbegun)
  · rfl

theorem poll (h : Wired describe steps handles) (number : Nat) :
    Wired describe (steps ++ [.poll number]) (handles.step describe (.poll number)) := by
  by_cases hbegun : Begun steps number
  · have hsame : handles.step describe (.poll number) = handles := h.start_of_begun hbegun
    refine h.keep hsame (by simp) fun other _ hpolls => ?_
    obtain rfl : number = other := Option.some.inj hpolls
    exact hbegun
  · cases hcall : handles.calls[number]? with
    | some call => exact h.firstPoll hcall hbegun rfl rfl
    | none =>
        have hsame : handles.step describe (.poll number) = handles := by simp only [Handles.step, start, hcall]
        refine h.keep hsame (by simp) fun other hlt hpolls => ?_
        obtain rfl : number = other := Option.some.inj hpolls
        exact absurd (h.length_calls ▸ List.getElem?_eq_none_iff.mp hcall) (Nat.not_le.mpr hlt)

theorem finish (h : Wired describe steps handles) (number : Nat) (outcome : Except ε Response) :
    Wired describe (steps ++ [.finish number outcome]) (handles.step describe (.finish number outcome)) := by
  by_cases hbegun : Begun steps number
  · obtain ⟨results, log, hsame⟩ : ∃ results log,
        handles.step describe (.finish number outcome) = { handles with results := results, log := log } := by
      cases hcall : handles.calls[number]? <;> cases hlookup : handles.results.lookup number <;>
        simp only [Handles.step, hcall, hlookup, h.start_of_begun hbegun] <;> exact ⟨_, _, rfl⟩
    refine h.keep hsame (by simp) fun other _ hpolls => ?_
    obtain rfl : number = other := Option.some.inj hpolls
    exact hbegun
  · cases hcall : handles.calls[number]? with
    | some call =>
        have hnew : handles.results.lookup number = none := h.lookup_eq_none_iff.mpr fun hended => hbegun hended.begun
        exact h.firstPoll hcall hbegun rfl (by simp only [Handles.step, hcall, hnew]; rfl)
    | none =>
        have hsame : handles.step describe (.finish number outcome) = handles := by simp only [Handles.step, hcall]
        refine h.keep hsame (by simp) fun other hlt hpolls => ?_
        obtain rfl : number = other := Option.some.inj hpolls
        exact absurd (h.length_calls ▸ List.getElem?_eq_none_iff.mp hcall) (Nat.not_le.mpr hlt)

theorem step (h : Wired describe steps handles) (next : Step ε) :
    Wired describe (steps ++ [next]) (handles.step describe next) := by
  have hmissing : ∀ handle, handles.held[handle]? = none → ∀ other < handles.held.length, handle ≠ other := by
    rintro handle hnone other hlt rfl
    exact absurd (List.getElem?_eq_none_iff.mp hnone) (Nat.not_le.mpr hlt)
  cases next with
  | ready handle answer =>
      cases htarget : handles.held[handle]? with
      | none =>
          have hsame : handles.step describe (.ready handle answer) = handles := by simp only [Handles.step, htarget]
          exact h.keep hsame (fun other hlt => ⟨by simp [hmissing handle htarget other hlt], by simp⟩)
            (by simp [Step.polls?])
      | some target =>
          cases answer with
          | error e => exact h.keep (step_refused describe handles handle e) (by simp) (by simp [Step.polls?])
          | ok => exact h.makeReady htarget
  | call handle request =>
      cases htarget : handles.held[handle]? with
      | none =>
          have hsame : handles.step describe (.call handle request) = handles := by simp only [Handles.step, htarget]
          exact h.keep hsame (fun other hlt => ⟨by simp, by simp [hmissing handle htarget other hlt]⟩)
            (by simp [Step.polls?])
      | some target => exact h.call htarget request
  | clone handle =>
      cases htarget : handles.held[handle]? with
      | none =>
          have hsame : handles.step describe (.clone handle) = handles := by simp only [Handles.step, htarget]
          exact h.keep hsame (by simp) (by simp [Step.polls?])
      | some target => exact h.clone htarget
  | poll number => exact h.poll number
  | finish number outcome => exact h.finish number outcome

end Wired

/-! ### A run -/

/-- After every run each instance is where the steps have put it. -/
theorem wired_run (describe : ε → String) (steps : List (Step ε)) : Wired describe steps (run describe fresh steps) := by
  induction steps using List.reverseRecOn with
  | nil => exact wired_fresh describe
  | append_singleton steps next ih =>
      rw [run_concat]
      exact ih.step next

/-- Every call is made by a step that calls a handle, and takes the instance that the handle holds then. -/
theorem exists_step_of_call {call : Call} (h : (run describe fresh steps).calls[number]? = some call) :
    ∃ before handle after, steps = before ++ .call handle call.request :: after ∧
      number = (requestsOf 1 before).length ∧ (run describe fresh before).held[handle]? = some call.target := by
  induction steps using List.reverseRecOn with
  | nil => simp [run, fresh] at h
  | append_singleton steps next ih =>
      rw [run_concat, calls_step] at h
      by_cases hold : number < (run describe fresh steps).calls.length
      · rw [List.getElem?_append_left hold] at h
        obtain ⟨before, handle, after, hsteps, hcall⟩ := ih h
        refine ⟨before, handle, after ++ [next], ?_, hcall⟩
        rw [hsteps, List.append_assoc, List.cons_append]
      · rw [List.getElem?_append_right (not_lt.mp hold)] at h
        cases next with
        | ready | clone | poll | finish => simp [callOf?] at h
        | call handle request =>
            cases htarget : (run describe fresh steps).held[handle]? with
            | none => simp [callOf?, htarget] at h
            | some target =>
                simp only [callOf?, htarget, Option.map_some, Option.toList_some, List.getElem?_singleton,
                  Option.ite_none_right_eq_some, Option.some.injEq] at h
                obtain ⟨hnumber, rfl⟩ := h
                refine ⟨steps, handle, [], rfl, ?_, htarget⟩
                rw [← (wired_run describe steps).length_calls]
                omega

/-- A call by its number: its handle was made ready, and is then called for the first time, with the instance that it held
when it was made ready. -/
def Entrusted (describe : ε → String) (steps : List (Step ε)) (number : Nat) (call : Call) : Prop :=
  ∃ earlier handle later after,
    steps = earlier ++ .ready handle (.ok ()) :: later ++ .call handle call.request :: after ∧
    (∀ request, .call handle request ∉ later) ∧
    number = (requestsOf 1 (earlier ++ .ready handle (.ok ()) :: later)).length ∧
    (run describe fresh earlier).held[handle]? = some call.target

/-- A handle that was made ready holds the same instance as then. -/
theorem held_of_polled (describe : ε → String) (h : Polled steps handle) : ∃ earlier later target,
    steps = earlier ++ .ready handle (.ok ()) :: later ∧ (∀ request, .call handle request ∉ later) ∧
      (run describe fresh earlier).held[handle]? = some target ∧
      (run describe fresh steps).held[handle]? = some target := by
  obtain ⟨earlier, later, rfl, hlt, hlater⟩ := h
  have hheld := (wired_run describe earlier).held
  obtain ⟨target, htarget⟩ : ∃ target, (run describe fresh earlier).held[handle]? = some target :=
    ⟨_, List.getElem?_eq_getElem (hheld ▸ hlt)⟩
  refine ⟨earlier, later, target, rfl, hlater, htarget, ?_⟩
  rw [run_append]
  exact held_run htarget (by simpa using hlater)

/-- Until a handle is made ready again after a call, it holds an instance that is not ready. -/
theorem not_ready_of_called {before more : List (Step ε)} {request : Request} (hlt : handle < handlesAfter 1 before)
    (hmore : .ready handle (.ok ()) ∉ more) :
    ∃ clone, (run describe fresh (before ++ .call handle request :: more)).held[handle]? = some clone ∧
      (run describe fresh (before ++ .call handle request :: more)).instances[clone]? = some false := by
  have hwired := wired_run describe (before ++ .call handle request :: more)
  have hexists : handle < handlesAfter 1 (before ++ .call handle request :: more) := by
    rw [handlesAfter_append]
    exact hlt.trans_le (le_handlesAfter _ _)
  obtain ⟨clone, hclone⟩ : ∃ clone,
      (run describe fresh (before ++ .call handle request :: more)).held[handle]? = some clone :=
    ⟨_, List.getElem?_eq_getElem (hwired.held ▸ hexists)⟩
  have hpolled : ¬Polled (before ++ .call handle request :: more) handle := fun hpolled => hmore hpolled.mem
  refine ⟨clone, hclone, ?_⟩
  rw [← hwired.ready handle clone hclone] at hpolled
  rw [List.getElem?_eq_getElem (hwired.lt_of_held hclone)] at hpolled ⊢
  simpa using hpolled

/-- What becomes of readiness over some steps. -/
structure HandsOver (describe : ε → String) (steps : List (Step ε)) : Prop where
  /-- Every call of a handle that there is takes an instance, in order. -/
  requests : (run describe fresh steps).calls.map Call.request = requestsOf 1 steps
  /-- It is the instance that was made ready for this call. -/
  entrusted : ∀ number call, (run describe fresh steps).calls[number]? = some call → Entrusted describe steps number call
  /-- A future that is polled makes one call, when it is polled first, and one that is never polled makes none. -/
  begun : ∀ number, number ∈ (run describe fresh steps).inner.map Inner.number ↔ Begun steps number
  once : ((run describe fresh steps).inner.map Inner.number).Nodup
  /-- This is the call that the handle was given, on the instance that was made ready for it and is ready still. -/
  granted : ∀ inner ∈ (run describe fresh steps).inner,
    inner.granted = true ∧ (run describe fresh steps).calls[inner.number]? = some inner.toCall
  /-- No instance is taken twice, or held once it was taken, and none is called twice. -/
  apart : ((run describe fresh steps).calls.map Call.target ++ (run describe fresh steps).held).Nodup
  distinct : ((run describe fresh steps).inner.map fun inner => inner.target).Nodup
  /-- A call leaves a new instance in its handle, which is not ready until the handle is made ready again. -/
  left : ∀ before handle request after, steps = before ++ .call handle request :: after →
    (run describe fresh (before ++ [.call handle request])).held[handle]? =
      some (run describe fresh before).instances.length ∧
    ∀ more, .ready handle (.ok ()) ∉ more →
      ∃ clone, (run describe fresh (before ++ .call handle request :: more)).held[handle]? = some clone ∧
        (run describe fresh (before ++ .call handle request :: more)).instances[clone]? = some false

/-- Calls on instances are as many as their targets, since each is made for a call of its own. -/
theorem Wired.nodup_targets (h : Wired describe steps handles) : (handles.inner.map fun inner => inner.target).Nodup := by
  refine List.Nodup.map_on (fun inner hinner other hother hsame => ?_) h.single.of_map
  obtain ⟨hcall, -⟩ := h.made inner hinner
  obtain ⟨hcall', -⟩ := h.made other hother
  exact List.inj_on_of_nodup_map h.single hinner hother (h.eq_of_call hcall hcall' hsame)

/-- Readiness is handed over to the call it was given for. Where handles are called only after they were made ready, every
call of a handle takes the instance that was made ready for it, its future calls this instance once and as ready as it was
made, and the clone that is left in the handle has to be made ready before the next call. -/
theorem run_hands_over (describe : ε → String) (h : Disciplined steps) : HandsOver describe steps := by
  have hwired := wired_run describe steps
  have hentrusted : ∀ number call, (run describe fresh steps).calls[number]? = some call →
      Trusted steps number ∧ Entrusted describe steps number call := by
    intro number call hcall
    obtain ⟨before, handle, after, hsteps, hnumber, hheld⟩ := exists_step_of_call hcall
    have hpolled := h before handle call.request after hsteps
    obtain ⟨earlier, later, target, rfl, hlater, hearlier, hnow⟩ := held_of_polled describe hpolled
    obtain rfl : target = call.target := Option.some.inj (hnow.symm.trans hheld)
    exact ⟨⟨_, handle, call.request, after, hsteps, hnumber, hpolled⟩,
      earlier, handle, later, after, hsteps, hlater, hnumber, hearlier⟩
  refine ⟨hwired.calls, fun number call hcall => (hentrusted number call hcall).2, hwired.begun, hwired.single,
    fun inner hinner => ?_, hwired.nodup, hwired.nodup_targets, fun before handle request after hsteps => ⟨?_, ?_⟩⟩
  · obtain ⟨hcall, hgranted⟩ := hwired.made inner hinner
    exact ⟨hgranted.mpr (hentrusted inner.number inner.toCall hcall).1, hcall⟩
  · obtain ⟨target, htarget⟩ : ∃ target, (run describe fresh before).held[handle]? = some target :=
      ⟨_, List.getElem?_eq_getElem ((wired_run describe before).held ▸ (h before handle request after hsteps).lt)⟩
    rw [run_concat, held_call htarget]
  · exact fun more => not_ready_of_called (h before handle request after hsteps).lt

/-- A handle is cloned while it is ready, and is called twice; its clone is called between, after it was busy first. The
future of the first call is never polled, and that of the last one is polled before the other. -/
def relayed : List (Step String) :=
  [.ready 0 (.ok ()), .clone 0, .call 0 plainGet, .ready 1 (.error "busy"), .ready 1 (.ok ()), .ready 0 (.ok ()),
    .call 1 sentLogin, .call 0 sentLogin, .poll 2, .finish 1 (.ok accepted), .finish 2 (.ok accepted)]

theorem relayed_disciplined : Disciplined relayed := by
  -- The list is read from its end, since every call looks back to the steps before it.
  have hreverse : relayed = List.reverse [.finish 2 (.ok accepted), .finish 1 (.ok accepted), .poll 2, .call 0 sentLogin,
      .call 1 sentLogin, .ready 0 (.ok ()), .ready 1 (.ok ()), .ready 1 (.error "busy"), .call 0 plainGet, .clone 0,
      .ready 0 (.ok ())] := rfl
  have hnil : Disciplined ([] : List (Step String)) := by simp [Disciplined]
  rw [hreverse]
  simp only [List.reverse_cons, List.reverse_nil, disciplined_concat_iff, polled_concat_iff, hnil]
  simp [handlesAfter]

/-- Each of the three calls has an instance of its own, two of which are called, and two new ones are left. -/
theorem run_hands_over_relayed : Disciplined relayed ∧
    (run id fresh relayed).calls = [⟨0, plainGet⟩, ⟨1, sentLogin⟩, ⟨2, sentLogin⟩] ∧
    (run id fresh relayed).inner = [⟨⟨2, sentLogin⟩, 2, true⟩, ⟨⟨1, sentLogin⟩, 1, true⟩] ∧ ¬Begun relayed 0 ∧
    (run id fresh relayed).held = [4, 3] ∧ Entrusted id relayed 2 ⟨2, sentLogin⟩ ∧
    ((run id fresh relayed).calls.map Call.target ++ (run id fresh relayed).held).Nodup ∧
    ∃ clone, (run id fresh relayed).held[0]? = some clone ∧ (run id fresh relayed).instances[clone]? = some false := by
  have hover := run_hands_over id relayed_disciplined
  have hinner : (run id fresh relayed).inner = [⟨⟨2, sentLogin⟩, 2, true⟩, ⟨⟨1, sentLogin⟩, 1, true⟩] := rfl
  obtain ⟨-, hready⟩ := hover.left (relayed.take 7) 0 sentLogin _ rfl
  refine ⟨relayed_disciplined, rfl, hinner, ?_, rfl, hover.entrusted 2 _ rfl, hover.apart,
    hready [.poll 2, .finish 1 (.ok accepted), .finish 2 (.ok accepted)] (by simp)⟩
  rw [← hover.begun, hinner]
  decide

end Handles
end RouteBook.Service
