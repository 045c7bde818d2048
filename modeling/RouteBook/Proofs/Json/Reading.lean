import RouteBook.Json.Value
import RouteBook.Proofs.Text.Traversal

/-! What reading gives. A text is read bracket by bracket, each one level further in, so what was read has brackets nested
no deeper than the reading goes, and the members of its objects stand in order. -/

namespace RouteBook.Json

namespace Outline

variable {value : List Char → Reading Outline} {fuel : Nat} {first : Bool} {text : List Char}

/-- Every item of a list was read as a value. -/
theorem exists_of_mem_readItems {item : Outline} (h : item ∈ (readItems value fuel first text).value.1) :
    ∃ start, item = (value start).value := by
  induction fuel generalizing first text with
  | zero => cases h
  | succ fuel ih =>
      unfold readItems at h
      extract_lets next at h
      have hitem : ∀ start, item ∈ (next start).value.1 → ∃ start, item = (value start).value := by
        intro start hmem
        simp only [next] at hmem
        split at hmem
        · exact ⟨start, List.mem_singleton.mp hmem⟩
        · rcases List.mem_cons.mp hmem with rfl | hmem
          · exact ⟨start, rfl⟩
          · exact ih hmem
      split at h
      · cases h
      · cases h
      · split_ifs at h
        · exact hitem _ h
        · split at h
          · cases h
          · cases h
          · exact hitem _ h
      · split_ifs at h
        · exact hitem _ h
        · cases h

/-- Every member of an object holds something that was read as a value. -/
theorem exists_of_mem_readMembers {member : String × Outline}
    (h : member ∈ (readMembers value fuel first text).value.1) : ∃ start, member.2 = (value start).value := by
  induction fuel generalizing first text with
  | zero => cases h
  | succ fuel ih =>
      unfold readMembers at h
      extract_lets next at h
      have hmember : ∀ start, member ∈ (next start).value.1 → ∃ start, member.2 = (value start).value := by
        intro start hmem
        simp only [next] at hmem
        split at hmem
        · cases hmem
        · split at hmem
          · cases hmem
          · split at hmem
            · rw [List.mem_singleton.mp hmem]
              exact ⟨_, rfl⟩
            · rcases List.mem_cons.mp hmem with rfl | hmem
              · exact ⟨_, rfl⟩
              · exact ih hmem
          · cases hmem
      split at h
      · cases h
      · cases h
      · split_ifs at h
        · cases h
        · split at h
          · cases h
          · exact hmember _ h
          · cases h
          · cases h
      · split_ifs at h
        · exact hmember _ h
        · cases h
      · cases h

/-- Brackets nest at most `levels` deep. -/
def Within : Nat → Outline → Prop
  | 0, .seq .. | 0, .map .. => False
  | levels + 1, .seq items _ => ∀ item ∈ items, Within levels item
  | levels + 1, .map members _ => ∀ member ∈ members, Within levels member.2
  | _, _ => True

/-- A value without brackets, or none. -/
def Flat : Outline → Prop
  | .seq .. | .map .. => False
  | _ => True

theorem Flat.within {outline : Outline} (h : Flat outline) (levels : Nat) : Within levels outline := by
  cases outline with
  | seq | map => exact h.elim
  | null | bool | num | str | torn => cases levels <;> trivial

theorem flat_torn (fault : Fault) : Flat (.torn fault) := trivial

theorem flat_ofReader {α : Type} {make : α → Outline} (h : ∀ content, Flat (make content))
    (result : Except Fault (α × List Char)) : Flat (ofReader make result).value := by
  cases result with
  | error fault => trivial
  | ok read => exact h read.1

theorem within_read (levels : Nat) (text : List Char) : Within levels (read levels text).value := by
  induction levels using Nat.strongRecOn generalizing text with
  | ind levels ih =>
      rw [read]
      split
      · exact (flat_torn _).within levels
      · exact (flat_ofReader (by exact fun _ => trivial) _).within levels
      · exact (flat_ofReader (by exact fun _ => trivial) _).within levels
      · exact (flat_ofReader (by exact fun _ => trivial) _).within levels
      · exact (flat_ofReader (by exact fun _ => trivial) _).within levels
      · exact (flat_ofReader (by exact fun _ => trivial) _).within levels
      · cases levels with
        | zero => exact (flat_torn _).within 0
        | succ inner =>
            intro item hitem
            obtain ⟨start, rfl⟩ := exists_of_mem_readItems hitem
            exact ih inner (Nat.lt_succ_self inner) start
      · cases levels with
        | zero => exact (flat_torn _).within 0
        | succ inner =>
            intro member hmember
            obtain ⟨start, heq⟩ := exists_of_mem_readMembers hmember
            rw [heq]
            exact ih inner (Nat.lt_succ_self inner) start
      · split_ifs
        · exact (flat_ofReader (by exact fun _ => trivial) _).within levels
        · exact (flat_torn _).within levels

end Outline

/-! ### Values -/

namespace Value

theorem ofItems_eq_mapM (items : List Outline) : ofItems items = items.mapM ofOutline := by
  induction items with
  | nil => rw [ofItems, List.mapM_nil]; rfl
  | cons item items ih => rw [ofItems, List.mapM_cons, ih]; rfl

theorem ofMembers_eq_mapM (members : List (String × Outline)) :
    ofMembers members = members.mapM fun member => (ofOutline member.2).map fun value => (member.1, value) := by
  induction members with
  | nil => rw [ofMembers, List.mapM_nil]; rfl
  | cons member members ih =>
      rw [ofMembers, List.mapM_cons, ih]
      cases ofOutline member.2 <;> rfl

theorem mem_of_mem_sortMembers {α : Type} {members : List (String × α)} {member : String × α}
    (h : member ∈ sortMembers members) : member ∈ members := by
  have hfold : ∀ sorted, member ∈ members.foldl (fun sorted (key, value) => insert key value sorted) sorted →
      member ∈ sorted ∨ member ∈ members := by
    clear h
    induction members with
    | nil => exact fun sorted hmem => Or.inl hmem
    | cons first members ih =>
        intro sorted hmem
        rcases ih _ hmem with hmem | hmem
        · rcases mem_insert hmem with rfl | hmem
          · exact Or.inr List.mem_cons_self
          · exact Or.inl hmem
        · exact Or.inr (List.mem_cons_of_mem first hmem)
  exact (hfold [] h).resolve_left (by simp)

/-- What reading can give: brackets nested at most `levels` deep, and the members of objects in order. -/
def Canonical : Nat → Value → Prop
  | 0, .arr _ | 0, .obj _ => False
  | levels + 1, .arr items => ∀ item ∈ items, Canonical levels item
  | levels + 1, .obj members => Sorted members ∧ ∀ member ∈ members, Canonical levels member.2
  | _, _ => True

theorem canonical_ofOutline {levels : Nat} {outline : Outline} {value : Value} (hwithin : outline.Within levels)
    (h : ofOutline outline = .ok value) : Canonical levels value := by
  induction levels using Nat.strongRecOn generalizing outline value with
  | ind levels ih =>
      cases outline with
      | null | bool | num | str =>
          cases h
          cases levels <;> trivial
      | torn fault => cases h
      | seq items tear =>
          cases levels with
          | zero => exact hwithin.elim
          | succ inner =>
              rw [ofOutline, ofItems_eq_mapM, bind_eq_ok_iff] at h
              obtain ⟨values, hvalues, h⟩ := h
              cases tear with
              | some fault => cases h
              | none =>
                  cases h
                  intro item hitem
                  obtain ⟨outline, houtline, hvalue⟩ := exists_of_mem_mapM hvalues hitem
                  exact ih inner (Nat.lt_succ_self inner) (hwithin outline houtline) hvalue
      | map members tear =>
          cases levels with
          | zero => exact hwithin.elim
          | succ inner =>
              rw [ofOutline, ofMembers_eq_mapM, bind_eq_ok_iff] at h
              obtain ⟨values, hvalues, h⟩ := h
              cases tear with
              | some fault => cases h
              | none =>
                  cases h
                  refine ⟨sorted_sortMembers values, fun member hmember => ?_⟩
                  obtain ⟨outline, houtline, hmade⟩ := exists_of_mem_mapM hvalues (mem_of_mem_sortMembers hmember)
                  obtain ⟨value, hvalue, rfl⟩ := map_eq_ok_iff.mp hmade
                  exact ih inner (Nat.lt_succ_self inner) (hwithin outline houtline) hvalue

theorem canonical_of_read {levels : Nat} {text rest : List Char} {value : Value}
    (h : read levels text = .ok (value, rest)) : Canonical levels value := by
  rw [read, bind_eq_ok_iff] at h
  obtain ⟨found, hfound, h⟩ := h
  cases h
  exact canonical_ofOutline (Outline.within_read levels text) hfound

theorem canonical_of_parse {text : String} {value : Value} (h : parse text = .ok value) :
    Canonical Outline.maxLevels value := by
  rw [parse, bind_eq_ok_iff] at h
  obtain ⟨⟨found, rest⟩, hread, h⟩ := h
  obtain ⟨-, -, h⟩ := bind_eq_ok_iff.mp h
  cases h
  exact canonical_of_read hread

end Value

end RouteBook.Json
