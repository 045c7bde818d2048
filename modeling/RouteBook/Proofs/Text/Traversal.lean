import Mathlib.Data.List.Forall2
import Mathlib.Tactic

/-! Lists of computations that may fail. They succeed if all of them do, and otherwise fail like the first that does. -/

namespace RouteBook

variable {α β ε : Type} {f g : α → Except ε β} {items before : List α} {results : List β} {item : α} {result : β} {e : ε}

theorem ok_bind (content : α) (next : α → Except ε β) : (Except.ok content >>= next) = next content := rfl

theorem bind_eq_ok_iff {first : Except ε α} {next : α → Except ε β} :
    (first >>= next) = .ok result ↔ ∃ content, first = .ok content ∧ next content = .ok result := by
  cases first with
  | error e => exact ⟨nofun, fun ⟨_, h, _⟩ => nomatch h⟩
  | ok content => exact ⟨fun h => ⟨content, rfl, h⟩, fun ⟨_, h, hnext⟩ => Except.ok.inj h ▸ hnext⟩

theorem map_eq_ok_iff {first : Except ε α} {make : α → β} :
    first.map make = .ok result ↔ ∃ content, first = .ok content ∧ make content = result := by
  cases first <;> simp [Except.map]

/-- A list of computations succeeds if all of them do, with their results in order. -/
theorem mapM_eq_ok_iff :
    items.mapM f = .ok results ↔ List.Forall₂ (fun item result => f item = .ok result) items results := by
  induction items generalizing results with
  | nil =>
      rw [List.mapM_nil, List.forall₂_nil_left_iff]
      exact ⟨fun h => (Except.ok.inj h).symm, fun h => congrArg _ h.symm⟩
  | cons item items ih =>
      rw [List.mapM_cons, List.forall₂_cons_left_iff, bind_eq_ok_iff]
      simp only [bind_eq_ok_iff, ih]
      constructor
      · rintro ⟨first, hitem, more, hitems, hresults⟩
        exact ⟨first, more, hitem, hitems, (Except.ok.inj hresults).symm⟩
      · rintro ⟨first, more, hitem, hitems, rfl⟩
        exact ⟨first, hitem, more, hitems, rfl⟩

/-- Every result of a list of computations is the result of one of them. -/
theorem exists_of_mem_mapM (h : items.mapM f = .ok results) (hresult : result ∈ results) :
    ∃ item ∈ items, f item = .ok result := by
  induction mapM_eq_ok_iff.mp h with
  | nil => cases hresult
  | @cons item first items more hitem hitems ih =>
      rcases List.mem_cons.mp hresult with rfl | hmore
      · exact ⟨item, List.mem_cons_self, hitem⟩
      · obtain ⟨other, hother, heq⟩ := ih (mapM_eq_ok_iff.mpr hitems) hmore
        exact ⟨other, List.mem_cons_of_mem item hother, heq⟩

theorem exists_ok_of_mem_mapM (h : items.mapM f = .ok results) (hitem : item ∈ items) :
    ∃ result, f item = .ok result := by
  induction mapM_eq_ok_iff.mp h with
  | nil => cases hitem
  | @cons first result items more hfirst hitems ih =>
      rcases List.mem_cons.mp hitem with rfl | hitem
      · exact ⟨result, hfirst⟩
      · exact ih (mapM_eq_ok_iff.mpr hitems) hitem

theorem mapM_congr_of_mem (h : ∀ item ∈ items, f item = g item) : items.mapM f = items.mapM g := by
  induction items with
  | nil => rfl
  | cons item items ih =>
      rw [List.mapM_cons, List.mapM_cons, h item List.mem_cons_self,
        ih fun other hother => h other (List.mem_cons_of_mem item hother)]

/-- A list of computations that fails has a first one that fails, with the same error. -/
theorem exists_first_of_mapM_error (h : items.mapM f = .error e) :
    ∃ before item after, items = before ++ item :: after ∧
      (∀ earlier ∈ before, ∃ result, f earlier = .ok result) ∧ f item = .error e := by
  induction items with
  | nil => cases h
  | cons first items ih =>
      rw [List.mapM_cons] at h
      cases hfirst : f first with
      | error cause =>
          rw [hfirst] at h
          cases h
          exact ⟨[], first, items, rfl, by simp, hfirst⟩
      | ok result =>
          cases hitems : items.mapM f with
          | ok more => rw [hfirst, hitems] at h; cases h
          | error cause =>
              rw [hfirst, hitems] at h
              cases h
              obtain ⟨before, item, after, rfl, hbefore, hitem⟩ := ih hitems
              refine ⟨first :: before, item, after, rfl, ?_, hitem⟩
              rw [List.forall_mem_cons]
              exact ⟨⟨result, hfirst⟩, hbefore⟩

theorem mapM_error_of_first (hbefore : ∀ earlier ∈ before, ∃ result, f earlier = .ok result)
    (hitem : f item = .error e) (after : List α) : (before ++ item :: after).mapM f = .error e := by
  induction before with
  | nil =>
      rw [List.nil_append, List.mapM_cons, hitem]
      rfl
  | cons first before ih =>
      rw [List.forall_mem_cons] at hbefore
      obtain ⟨⟨result, hfirst⟩, hbefore⟩ := hbefore
      rw [List.cons_append, List.mapM_cons, hfirst, ih hbefore]
      rfl

end RouteBook
