import Mathlib.Logic.Relation
import RouteBook.Json.Record
import RouteBook.Proofs.Json.Tokens
import RouteBook.Proofs.Text.Traversal

/-! Records that were read. Whichever way a record is written, its fields were stored one after another in the empty record;
so what every field preserves holds of the result. The other way round, an object with one of the known keys is read by the
field of this name. -/

namespace RouteBook.Json.Reader

open Relation (ReflTransGen)

variable {ρ : Type} {fields : List (Field ρ)} {field : Field ρ} {record stored result : ρ} {fuel index : Nat} {first : Bool}
  {seen : List String} {key title expected : String} {text rest left : List Char}

/-! ### What a record was made of -/

/-- One of the fields turns a record into another. -/
def Stores (fields : List (Field ρ)) (record stored : ρ) : Prop :=
  ∃ field ∈ fields, ∃ text rest, field.read record text = .ok (stored, rest)

/-- What an item of a list or an object begins with, behind white space and, unless it is the first, a comma. -/
def Begins (first : Bool) (text start : List Char) : Prop :=
  if first then skipSpace text = start else ∃ behind, skipSpace text = ',' :: behind ∧ skipSpace behind = start

/-- What becomes of a member: the value of an unknown key is passed over, that of a known one is stored, once. -/
inductive Step (fields : List (Field ρ)) (seen : List String) (record : ρ) (key : String) (content : List Char) :
    List String → ρ → List Char → Prop
  | passed {rest : List Char} (hkey : fields.find? (fun field => field.name = key) = none)
    (hskip : Skip.value content = .ok ((), rest)) : Step fields seen record key content seen record rest
  | stored {field : Field ρ} {stored : ρ} {rest : List Char} (hkey : fields.find? (fun field => field.name = key) = some field)
    (hseen : key ∉ seen) (hread : field.read record content = .ok (stored, rest)) :
    Step fields seen record key content (key :: seen) stored rest

/-- An object ends, or goes on with a member. -/
theorem readObject_cases (h : readObject fields (fuel + 1) first seen record text = .ok (result, left)) :
    (skipSpace text = '}' :: left ∧ result = record) ∨
    ∃ start key behind content seen' stored rest, Begins first text ('"' :: start) ∧ readString start = .ok (key, behind) ∧
      skipSpace behind = ':' :: content ∧ Step fields seen record key content seen' stored rest ∧
      readObject fields fuel false seen' stored rest = .ok (result, left) := by
  unfold readObject at h
  extract_lets colon member at h
  have hcolon : ∀ {behind content}, colon behind = .ok content → skipSpace behind = ':' :: content := by
    intro behind content hbehind
    simp only [colon] at hbehind
    split at hbehind
    · cases hbehind
    · next hstart =>
      cases hbehind
      exact hstart
    · cases hbehind
  have hmember : ∀ {start}, member start = .ok (result, left) →
      ∃ key behind content seen' stored rest, readString start = .ok (key, behind) ∧ skipSpace behind = ':' :: content ∧
        Step fields seen record key content seen' stored rest ∧
        readObject fields fuel false seen' stored rest = .ok (result, left) := by
    intro start hstart
    obtain ⟨⟨key, behind⟩, hkey, hstart⟩ := bind_eq_ok_iff.mp hstart
    dsimp only at hstart
    split at hstart
    · next hnone =>
      obtain ⟨content, hcontent, hstart⟩ := bind_eq_ok_iff.mp hstart
      obtain ⟨⟨_, rest⟩, hskip, hstart⟩ := bind_eq_ok_iff.mp hstart
      exact ⟨key, behind, content, _, _, rest, hkey, hcolon hcontent, .passed hnone hskip, hstart⟩
    · next field hfield =>
      split_ifs at hstart with hseen
      obtain ⟨content, hcontent, hstart⟩ := bind_eq_ok_iff.mp hstart
      obtain ⟨⟨stored, rest⟩, hread, hstart⟩ := bind_eq_ok_iff.mp hstart
      exact ⟨key, behind, content, _, stored, rest, hkey, hcolon hcontent, .stored hfield hseen hread, hstart⟩
  split at h
  · cases h
  · next hclose =>
    split at h
    · cases h
    · cases h
      exact Or.inl ⟨hclose, rfl⟩
  · next behind hcomma =>
    split_ifs at h with hfirst
    split at h
    · cases h
    · next start hstart =>
      have hbegins : Begins first text ('"' :: start) := by
        rw [Begins, if_neg hfirst]
        exact ⟨behind, hcomma, hstart⟩
      obtain ⟨key, behind, content, seen', stored, rest, hmember⟩ := hmember h
      exact Or.inr ⟨_, key, behind, content, seen', stored, rest, hbegins, hmember⟩
    · cases h
    · cases h
  · next start hstart =>
    split_ifs at h with hfirst
    have hbegins : Begins first text ('"' :: start) := by rwa [Begins, if_pos hfirst]
    obtain ⟨key, behind, content, seen', stored, rest, hmember⟩ := hmember h
    exact Or.inr ⟨_, key, behind, content, seen', stored, rest, hbegins, hmember⟩
  · cases h

theorem readObject_stores (h : readObject fields fuel first seen record text = .ok (result, left)) :
    ReflTransGen (Stores fields) record result := by
  induction fuel generalizing first seen record text with
  | zero => cases h
  | succ fuel ih =>
      obtain ⟨-, rfl⟩ | ⟨start, key, behind, content, seen', stored, rest, -, -, -, hstep, hrest⟩ := readObject_cases h
      · exact .refl
      · cases hstep with
        | passed => exact ih hrest
        | stored hkey _ hread => exact .head ⟨_, List.mem_of_find?_eq_some hkey, content, rest, hread⟩ (ih hrest)

theorem readArray_nil (h : readArray expected index ([] : List (Field ρ)) record text = .ok (result, left)) :
    skipSpace text = ']' :: left ∧ result = record := by
  rw [readArray, bind_eq_ok_iff] at h
  obtain ⟨rest, hclose, h⟩ := h
  cases h
  unfold closeList at hclose
  split at hclose
  · cases hclose
  · next hstart =>
    cases hclose
    exact ⟨hstart, rfl⟩
  · split at hclose <;> cases hclose
  · cases hclose

/-- An array goes on with an item that is stored by the next field. -/
theorem readArray_cons (h : readArray expected index (field :: fields) record text = .ok (result, left)) :
    ∃ start stored rest, Begins (decide (index = 0)) text start ∧ field.read record start = .ok (stored, rest) ∧
      readArray expected (index + 1) fields stored rest = .ok (result, left) := by
  unfold readArray at h
  extract_lets item at h
  have hitem : ∀ {start}, item start = .ok (result, left) → ∃ stored rest, field.read record start = .ok (stored, rest) ∧
      readArray expected (index + 1) fields stored rest = .ok (result, left) := by
    intro start hstart
    obtain ⟨⟨stored, rest⟩, hread, hstart⟩ := bind_eq_ok_iff.mp hstart
    exact ⟨stored, rest, hread, hstart⟩
  have hfirst : index = 0 → ∀ {start}, skipSpace text = start → Begins (decide (index = 0)) text start := by
    intro hindex start hstart
    rwa [Begins, if_pos (decide_eq_true hindex)]
  split at h
  · cases h
  · cases h
  · next behind hcomma =>
    split_ifs at h with hindex
    · exact ⟨_, (hitem h).imp fun stored h => h.imp fun rest h => ⟨hfirst hindex hcomma, h⟩⟩
    · have hlater : Begins (decide (index = 0)) text (skipSpace behind) := by
        rw [Begins, if_neg (by simpa using hindex)]
        exact ⟨behind, hcomma, rfl⟩
      split at h
      · cases h
      · cases h
      · exact ⟨_, (hitem h).imp fun stored h => h.imp fun rest h => ⟨hlater, h⟩⟩
  · split_ifs at h with hindex
    exact ⟨_, (hitem h).imp fun stored h => h.imp fun rest h => ⟨hfirst hindex rfl, h⟩⟩

theorem readArray_stores {behind : List (Field ρ)} (hbehind : behind ⊆ fields)
    (h : readArray expected index behind record text = .ok (result, left)) :
    ReflTransGen (Stores fields) record result := by
  induction behind generalizing index record text with
  | nil =>
      obtain ⟨-, rfl⟩ := readArray_nil h
      exact .refl
  | cons field behind ih =>
      rw [List.cons_subset] at hbehind
      obtain ⟨start, stored, rest, -, hread, hrest⟩ := readArray_cons h
      exact .head ⟨field, hbehind.1, start, rest, hread⟩ (ih hbehind.2 hrest)

/-- A record that was read came from the empty one by storing fields. -/
theorem record_stores (h : Reader.record title fields record text = .ok (result, left)) :
    ReflTransGen (Stores fields) record result := by
  rw [Reader.record] at h
  split at h
  · exact readArray_stores (List.Subset.refl fields) h
  · exact readObject_stores h
  · cases h

/-! ### Objects that are read -/

theorem readObject_close (h : ∀ field ∈ fields, field.required = true → field.name ∈ seen) (rest : List Char) :
    readObject fields (fuel + 1) first seen record ('}' :: rest) = .ok (record, rest) := by
  have hnone : fields.find? (fun field => field.required && field.name ∉ seen) = none := by
    simpa [List.find?_eq_none] using h
  rw [readObject, skipSpace_cons (by decide)]
  simp only [hnone]

theorem readObject_member (hfind : fields.find? (fun field => field.name = key) = some field) (hseen : key ∉ seen)
    (hread : field.read record text = .ok (stored, rest)) :
    readObject fields (fuel + 1) true seen record (quote key ++ ':' :: text) =
      readObject fields fuel false (key :: seen) stored rest := by
  have hcolon : skipSpace (':' :: text) = ':' :: text := skipSpace_cons (by decide) text
  rw [readObject, quote_append, skipSpace_cons (by decide)]
  simp only [readString_escape, ok_bind, hcolon, hfind, if_neg hseen, hread, if_true]

/-- A record is read from an object with one member if no other field is required. -/
theorem record_member (hfind : fields.find? (fun field => field.name = key) = some field)
    (honly : ∀ field ∈ fields, field.required = true → field.name = key)
    (hread : field.read record text = .ok (stored, '}' :: rest)) :
    Reader.record title fields record ('{' :: (quote key ++ ':' :: text)) = .ok (stored, rest) := by
  have hlength : (quote key ++ ':' :: text).length = (quote key).length + text.length + 1 := by
    rw [List.length_append, List.length_cons]
    omega
  have hclose : ∀ field ∈ fields, field.required = true → field.name ∈ [key] := by simpa using honly
  rw [Reader.record, skipSpace_cons (by decide)]
  simp only [hlength]
  rw [readObject_member hfind (by simp) hread, readObject_close hclose]

end RouteBook.Json.Reader
