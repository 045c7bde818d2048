import Mathlib
import RouteBook.Proofs.Json.Printing
import RouteBook.Proofs.Json.Records
import RouteBook.Service.Users

/-! The user listing has one written form. However a listing is written, what was read from it is printed in this form, and
reading gives the same listing again. -/

namespace RouteBook.Service.UsersResponse

open Json (Value Ends)
open Json.Outline (maxLevels)

variable {text : String} {response : UsersResponse} {users : List Value}

/-! ### Listings that were read -/

theorem canonical_of_values {levels : Nat} {text rest : List Char}
    (h : Json.Reader.values levels text = .ok (users, rest)) : ∀ user ∈ users, user.Canonical (levels - 1) := by
  rw [Json.Reader.values] at h
  split at h
  · obtain ⟨⟨value, rest⟩, hread, h⟩ := bind_eq_ok_iff.mp h
    have hvalue := Value.canonical_of_read hread
    cases value with
    | arr items =>
        cases h
        cases levels with
        | zero => exact hvalue.elim
        | succ levels => exact hvalue
    | null | bool | num | str | obj =>
        cases h
        simp
  · cases h

/-- The users of a listing that was read are values that reading gives two brackets further in. -/
theorem canonical_of_parse (h : parse text = .ok response) : ∀ user ∈ response.users, user.Canonical (maxLevels - 2) := by
  obtain ⟨⟨found, rest⟩, hread, h⟩ := bind_eq_ok_iff.mp h
  obtain ⟨-, -, h⟩ := bind_eq_ok_iff.mp h
  cases h
  cases Json.Reader.record_stores hread with
  | refl => simp [empty]
  | tail _ hlast =>
      obtain ⟨field, hfield, start, rest, hstore⟩ := hlast
      obtain rfl := List.mem_singleton.mp hfield
      obtain ⟨⟨users, left⟩, hvalues, hmade⟩ := map_eq_ok_iff.mp hstore
      cases hmade
      exact canonical_of_values hvalues

/-! ### The written form -/

theorem toList_toJson (response : UsersResponse) :
    response.toJson.toList = '{' :: (Json.quote "users" ++ ':' :: ((Value.arr response.users).compactChars ++ ['}'])) := by
  simp [toJson, Value.compact, Value.compactChars, Value.compactMembers]

theorem values_compactChars {levels : Nat} (h : (Value.arr users).Canonical levels) (hint : (Value.arr users).Integral)
    {rest : List Char} (hrest : Ends rest) :
    Json.Reader.values levels ((Value.arr users).compactChars ++ rest) = .ok (users, rest) := by
  have hread := (Value.bracketing_compact.spells h hint 0).read hrest
  rw [Value.compactChars, List.cons_append, List.cons_append] at hread ⊢
  rw [Json.Reader.values, Json.skipSpace_cons (by decide), hread]
  rfl

theorem parse_toJson (h : ∀ user ∈ response.users, user.Canonical (maxLevels - 2))
    (hint : ∀ user ∈ response.users, user.Integral) : parse response.toJson = .ok response := by
  have hcanonical : (Value.arr response.users).Canonical (maxLevels - 1) := h
  have hvalues : Json.Reader.values (maxLevels - 1) ((Value.arr response.users).compactChars ++ ['}']) =
      .ok (response.users, ['}']) :=
    values_compactChars hcanonical (Value.integral_arr_iff.mpr hint) (Json.ends_cons (by decide) [])
  have hrecord : reader response.toJson.toList = .ok (response, []) := by
    rw [toList_toJson]
    refine Json.Reader.record_member rfl (by simp) ?_
    simp only [hvalues]
    rfl
  rw [parse, Json.Reader.run, hrecord]
  rfl

/-- Reading and printing a listing normalises its text. Whatever the text was, with unknown members, in the form of an
array, with other white space or escapes, the printed text starts and ends as stated here, is read as the same listing
and is printed unchanged. Only the numbers among the users have to be integers, not those that were passed over. -/
theorem toJson_normal (h : parse text = .ok response) (hint : ∀ user ∈ response.users, user.Integral) :
    (∃ items, response.toJson = "\x7b\"users\":[" ++ items ++ "]\x7d") ∧
      ∃ again, parse response.toJson = .ok again ∧ again = response ∧
        again.users.length = response.users.length ∧ again.toJson = response.toJson := by
  have hagain := parse_toJson (canonical_of_parse h) hint
  refine ⟨⟨String.ofList (Value.compactItems true response.users), ?_⟩, response, hagain, rfl, rfl, rfl⟩
  have hopening : "\x7b\"users\":[".toList = '{' :: (Json.quote "users" ++ [':', '[']) := by decide
  have hclosing : "]\x7d".toList = [']', '}'] := by decide
  rw [← String.toList_inj, toList_toJson, String.toList_append, String.toList_append, hopening, hclosing,
    String.toList_ofList]
  simp [Value.compactChars]

/-- Unknown members, a repeated key and an escape. -/
theorem toJson_normal_unordered :
    ∃ again, parse (toJson ⟨[.obj [("a", .num (.int 2)), ("b", .str "é")]]⟩) = .ok again ∧ again.users.length = 1 := by
  have hparse : parse "\x7b\"more\":[1.5],\"users\" : [ \x7b\"b\":\"\\u00e9\",\"a\":1,\"a\":2\x7d ]\x7d" =
      .ok ⟨[.obj [("a", .num (.int 2)), ("b", .str "é")]]⟩ := by cbv
  have hint : ∀ user ∈ [Value.obj [("a", .num (.int 2)), ("b", .str "é")]], user.Integral := by
    simp [Value.Integral, Value.numbers, Value.memberNumbers, Json.Number.Integral]
  obtain ⟨-, again, hagain, -, hlength, -⟩ := toJson_normal hparse hint
  exact ⟨again, hagain, hlength⟩

end RouteBook.Service.UsersResponse
