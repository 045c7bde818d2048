import Mathlib

/-! Values under keys. Among items with distinct keys the value that is found under a key is the one that stands there,
so it does not depend on the order of the items. -/

namespace RouteBook

variable {κ α β : Type} [BEq κ] [LawfulBEq κ] {key : κ} {items others : List (κ × α)}

theorem mem_keys_iff_isSome : key ∈ items.map Prod.fst ↔ (items.lookup key).isSome = true := by
  rw [List.lookup_isSome_iff, List.mem_map]
  simp only [beq_iff_eq, eq_comm (a := key)]

omit [LawfulBEq κ] in
theorem lookup_mapSnd (f : α → β) (key : κ) (items : List (κ × α)) :
    (items.map fun (name, value) => (name, f value)).lookup key = (items.lookup key).map f := by
  induction items with
  | nil => rfl
  | cons item rest ih =>
      obtain ⟨name, value⟩ := item
      rw [List.map_cons, List.lookup_cons, List.lookup_cons]
      cases key == name with
      | true => rfl
      | false => exact ih

/-- Among items with distinct keys an item is what is looked up under its key. -/
theorem lookup_eq_some_iff_mem {value : α} (h : (items.map Prod.fst).Nodup) :
    items.lookup key = some value ↔ (key, value) ∈ items := by
  rw [List.lookup_eq_some_iff]
  constructor
  · rintro ⟨before, after, rfl, -⟩
    simp
  · intro hmem
    obtain ⟨before, after, rfl⟩ := List.append_of_mem hmem
    refine ⟨before, after, rfl, fun item hitem => ?_⟩
    rw [List.map_append, List.map_cons, List.nodup_append] at h
    exact bne_iff_ne.mpr (h.2.2 item.1 (List.mem_map_of_mem hitem) key List.mem_cons_self).symm

theorem lookup_eq_of_perm (h : (items.map Prod.fst).Nodup) (hperm : others.Perm items) :
    others.lookup key = items.lookup key := by
  have hothers : (others.map Prod.fst).Nodup := (hperm.map Prod.fst).nodup_iff.mpr h
  ext value
  rw [lookup_eq_some_iff_mem hothers, lookup_eq_some_iff_mem h, hperm.mem_iff]

end RouteBook
