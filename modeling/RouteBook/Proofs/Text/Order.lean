import Mathlib.Tactic
import RouteBook.Proofs.Text.Ascii

/-! The byte order of texts and of names. It is a linear order, so sorting by it gives one result whatever the
order of the items was before. -/

namespace RouteBook

theorem bytesLe_total (a b : Bytes) : (bytesLe a b || bytesLe b a) = true := by
  induction a generalizing b with
  | nil => simp [bytesLe]
  | cons x a ih =>
      cases b with
      | nil => simp [bytesLe]
      | cons y b =>
          have hrest := ih b
          by_cases heq : x = y
          · subst heq
            simpa [bytesLe] using hrest
          · rcases UInt8.lt_or_lt_of_ne heq with hlt | hlt
            · simp [bytesLe, hlt]
            · simp [bytesLe, hlt]

theorem bytesLe_antisymm {a b : Bytes} (hab : bytesLe a b = true) (hba : bytesLe b a = true) : a = b := by
  induction a generalizing b with
  | nil =>
      cases b with
      | nil => rfl
      | cons y b => simp [bytesLe] at hba
  | cons x a ih =>
      cases b with
      | nil => simp [bytesLe] at hab
      | cons y b =>
          simp only [bytesLe, Bool.or_eq_true, decide_eq_true_eq, Bool.and_eq_true, beq_iff_eq] at hab hba
          rcases hab with hlt | ⟨rfl, hab⟩
          · rcases hba with hgt | ⟨rfl, -⟩
            · exact absurd hgt (UInt8.lt_asymm hlt)
            · exact absurd hlt (UInt8.lt_irrefl _)
          · rcases hba with hgt | ⟨-, hba⟩
            · exact absurd hgt (UInt8.lt_irrefl _)
            · rw [ih hab hba]

theorem bytesLe_trans {a b c : Bytes} (hab : bytesLe a b = true) (hbc : bytesLe b c = true) :
    bytesLe a c = true := by
  induction a generalizing b c with
  | nil => simp [bytesLe]
  | cons x a ih =>
      cases b with
      | nil => simp [bytesLe] at hab
      | cons y b =>
          cases c with
          | nil => simp [bytesLe] at hbc
          | cons z c =>
              simp only [bytesLe, Bool.or_eq_true, decide_eq_true_eq, Bool.and_eq_true, beq_iff_eq] at hab hbc ⊢
              rcases hab with hlt | ⟨rfl, hab⟩
              · rcases hbc with hlt' | ⟨rfl, -⟩
                · exact Or.inl (UInt8.lt_trans hlt hlt')
                · exact Or.inl hlt
              · rcases hbc with hlt' | ⟨rfl, hbc⟩
                · exact Or.inl hlt'
                · exact Or.inr ⟨rfl, ih hab hbc⟩

theorem lt_of_bytesLe {a b : Bytes} (hle : bytesLe a b = true) (hne : a ≠ b) : a < b := by
  induction a generalizing b with
  | nil =>
      cases b with
      | nil => exact absurd rfl hne
      | cons y b => exact List.nil_lt_cons y b
  | cons x a ih =>
      cases b with
      | nil => simp [bytesLe] at hle
      | cons y b =>
          simp only [bytesLe, Bool.or_eq_true, decide_eq_true_eq, Bool.and_eq_true, beq_iff_eq] at hle
          rw [List.cons_lt_cons_iff]
          rcases hle with hlt | ⟨rfl, hle⟩
          · exact Or.inl hlt
          · exact Or.inr ⟨rfl, ih hle fun heq => hne (by rw [heq])⟩

theorem pairwise_mergeSort_texts (texts : List String) :
    (texts.mergeSort fun a b => bytesLe (utf8 a) (utf8 b)).Pairwise fun a b => bytesLe (utf8 a) (utf8 b) = true := by
  apply List.pairwise_mergeSort
  · intro a b c
    exact bytesLe_trans
  · intro a b
    exact bytesLe_total _ _

/-- Texts are sorted in one way only. -/
theorem mergeSort_texts_eq {names others : List String} (h : names.Perm others) :
    names.mergeSort (fun a b => bytesLe (utf8 a) (utf8 b)) = others.mergeSort (fun a b => bytesLe (utf8 a) (utf8 b)) := by
  apply List.Perm.eq_of_pairwise _ (pairwise_mergeSort_texts names) (pairwise_mergeSort_texts others)
  · calc names.mergeSort _ |>.Perm names := List.mergeSort_perm _ _
      _ |>.Perm others := h
      _ |>.Perm (others.mergeSort _) := (List.mergeSort_perm _ _).symm
  · intro a b _ _ hab hba
    exact utf8_injective (bytesLe_antisymm hab hba)

theorem pairwise_mergeSort_bytesLe (names : List Bytes) :
    (names.mergeSort bytesLe).Pairwise fun a b => bytesLe a b = true := by
  apply List.pairwise_mergeSort
  · intro a b c
    exact bytesLe_trans
  · exact bytesLe_total

/-- Sorting among others does not change the order of some names. -/
theorem filter_mergeSort_append {names more : List Bytes} (h : ∀ name ∈ more, name ∉ names) :
    ((names ++ more).mergeSort bytesLe).filter (· ∈ names) = names.mergeSort bytesLe := by
  have hfilter : (names ++ more).filter (· ∈ names) = names := by
    rw [List.filter_append, List.filter_eq_self.mpr (by simp), List.filter_eq_nil_iff.mpr (by simpa using h),
      List.append_nil]
  apply List.Perm.eq_of_pairwise _ ((pairwise_mergeSort_bytesLe _).filter _) (pairwise_mergeSort_bytesLe names)
  · calc ((names ++ more).mergeSort bytesLe).filter (· ∈ names)
        |>.Perm ((names ++ more).filter (· ∈ names)) := (List.mergeSort_perm _ _).filter _
      _ |>.Perm names := by rw [hfilter]
      _ |>.Perm (names.mergeSort bytesLe) := (List.mergeSort_perm _ _).symm
  · intro a b _ _ hab hba
    exact bytesLe_antisymm hab hba

end RouteBook
