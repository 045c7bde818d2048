import Mathlib.Data.List.DropRight
import Mathlib.Tactic
import RouteBook.Json.Print
import RouteBook.Proofs.Text.Numerals

/-! Tokens are read back. Every character of a string comes back from its escape, so a written string is read as the
string; and the digits of a 64-bit integer are read as that integer if nothing behind them goes on with the number. -/

namespace RouteBook.Json

/-! ### White space -/

/-- A text of white space. -/
def Blank (text : List Char) : Prop := ∀ c ∈ text, isSpace c = true

theorem skipSpace_append {gap : List Char} (h : Blank gap) (text : List Char) :
    skipSpace (gap ++ text) = skipSpace text := List.dropWhile_append_of_pos h

theorem skipSpace_cons {c : Char} (h : isSpace c = false) (text : List Char) : skipSpace (c :: text) = c :: text :=
  List.dropWhile_cons_of_neg (by simp [h])

/-! ### Strings -/

theorem byteLength_cons (c : Char) (text : List Char) : byteLength (c :: text) = c.utf8Size + byteLength text := by
  have hfrom : ∀ (text : List Char) (n : Nat), text.foldl (fun n c => n + c.utf8Size) n = n + byteLength text := by
    intro text
    induction text with
    | nil => simp [byteLength]
    | cons d text ih =>
        intro n
        rw [byteLength, List.foldl_cons, List.foldl_cons, ih, ih]
        omega
  rw [byteLength, List.foldl_cons, hfrom, Nat.zero_add]

theorem length_le_byteLength (text : List Char) : text.length ≤ byteLength text := by
  induction text with
  | nil => exact Nat.zero_le _
  | cons c text ih =>
      have hsize := c.utf8Size_pos
      rw [byteLength_cons, List.length_cons]
      omega

theorem readHex_control {n : Nat} (h : n < 0x20) (rest : List Char) :
    readHex ('0' :: '0' :: Nat.digitChar (n / 16) :: Nat.digitChar (n % 16) :: rest) = .ok (n, rest) := by
  have hdigit : ∀ d < 16, hexValue? (Nat.digitChar d) = some d := by decide
  have hzero : hexValue? '0' = some 0 := by decide
  have hnumber : ((0 * 16 + 0) * 16 + n / 16) * 16 + n % 16 = n := by omega
  have hlength := length_le_byteLength ('0' :: '0' :: Nat.digitChar (n / 16) :: Nat.digitChar (n % 16) :: rest)
  simp only [List.length_cons] at hlength
  rw [readHex, if_neg (by omega)]
  simp only [hzero, hdigit _ (by omega : n / 16 < 16), hdigit _ (by omega : n % 16 < 16), hnumber]

theorem readUnicode_control {c : Char} (h : c.toNat < 0x20) (rest : List Char) :
    readUnicode ('0' :: '0' :: Nat.digitChar (c.toNat / 16) :: Nat.digitChar (c.toNat % 16) :: rest) = .ok (c, rest) := by
  have hleading : isLeading c.toNat = false := by simp [isLeading]; omega
  have htrailing : isTrailing c.toNat = false := by simp [isTrailing]; omega
  simp only [readUnicode, readHex_control h, hleading, htrailing, Char.ofNat_toNat]
  rfl

theorem readChars_of_escape {text rest : List Char} {c : Char} (h : readEscape text = .ok (c, rest)) :
    readChars ('\\' :: text) = (readChars rest).map fun (cs, left) => (c :: cs, left) := by
  rw [readChars, if_neg (by decide), if_pos rfl]
  split
  · next fault hfault => rw [h] at hfault; cases hfault
  · next d left hread =>
    rw [h] at hread
    cases hread
    rfl

/-- A character of a string is read back, however it is written. -/
theorem readChars_escape (c : Char) (text : List Char) :
    readChars (escape c ++ text) = (readChars text).map fun (cs, left) => (c :: cs, left) := by
  unfold escape
  split_ifs with hquote hbackslash hback htab hfeed hform hreturn hcontrol
  · subst hquote
    exact readChars_of_escape rfl
  · subst hbackslash
    exact readChars_of_escape rfl
  · subst hback
    exact readChars_of_escape rfl
  · subst htab
    exact readChars_of_escape rfl
  · subst hfeed
    exact readChars_of_escape rfl
  · subst hform
    exact readChars_of_escape rfl
  · subst hreturn
    exact readChars_of_escape rfl
  · exact readChars_of_escape (readUnicode_control hcontrol text)
  · rw [List.singleton_append, readChars, if_neg hquote, if_neg hbackslash, if_neg hcontrol]

theorem readString_escape (s : String) (rest : List Char) :
    readString (s.toList.flatMap escape ++ '"' :: rest) = .ok (s, rest) := by
  have hchars : ∀ cs : List Char, readChars (cs.flatMap escape ++ '"' :: rest) = .ok (cs, rest) := by
    intro cs
    induction cs with
    | nil => rw [List.flatMap_nil, List.nil_append, readChars, if_pos rfl]
    | cons c cs ih =>
        rw [List.flatMap_cons, List.append_assoc, readChars_escape, ih]
        rfl
  simp only [readString, hchars, Except.map, String.ofList_toList]

theorem quote_append (s : String) (rest : List Char) :
    quote s ++ rest = '"' :: (s.toList.flatMap escape ++ '"' :: rest) := by simp [quote]

/-! ### Integers -/

/-- What follows a number does not go on with it. -/
def Ends (rest : List Char) : Prop := ∀ c ∈ rest.head?, c.isDigit = false ∧ c ∉ ['.', 'e', 'E']

theorem Ends.takeWhile {rest : List Char} (h : Ends rest) : rest.takeWhile Char.isDigit = [] := by
  cases rest with
  | nil => rfl
  | cons c rest => exact List.takeWhile_cons_of_neg (by simp [(h c rfl).1])

theorem Ends.dropWhile {rest : List Char} (h : Ends rest) : rest.dropWhile Char.isDigit = rest := by
  cases rest with
  | nil => rfl
  | cons c rest => exact List.dropWhile_cons_of_neg (by simp [(h c rfl).1])

theorem isDigit_toDigits (n : Nat) : ∀ c ∈ Nat.toDigits 10 n, c.isDigit = true :=
  fun _ hc => Nat.isDigit_of_mem_toDigits (by decide) (by decide) hc

namespace Number

/-- All digits of a number that fits 64 bits are absorbed. -/
theorem absorb_eq {digits : List Char} {significand : Nat}
    (h : Nat.ofDigitChars 10 digits significand < UInt64.size) :
    absorb significand digits = (Nat.ofDigitChars 10 digits significand, digits.length, 0) := by
  have hle : ∀ (digits : List Char) (n : Nat), n ≤ Nat.ofDigitChars 10 digits n := by
    intro digits n
    have hpos : 1 ≤ 10 ^ digits.length := Nat.one_le_pow _ _ (by decide)
    rw [Nat.ofDigitChars_eq_ofDigitChars_zero]
    nlinarith
  induction digits generalizing significand with
  | nil => rfl
  | cons d digits ih =>
      have hgrown : significand * 10 + digitValue d = 10 * significand + (d.toNat - '0'.toNat) := by
        rw [digitValue, Nat.mul_comm]
        rfl
      rw [Nat.ofDigitChars_cons, ← hgrown] at h ⊢
      simp only [absorb, if_pos ((hle digits _).trans_lt h), ih h]
      rfl

/-- The digits of a number that fits 64 bits are read as an integer literal. -/
theorem read_toDigits (negative : Bool) {n : Nat} (hn : n < UInt64.size) {rest : List Char} (hrest : Ends rest) :
    read negative (Nat.toDigits 10 n ++ rest) = .ok (ofInteger negative n, rest) := by
  have hdigits := isDigit_toDigits n
  have htake : (Nat.toDigits 10 n ++ rest).takeWhile Char.isDigit = Nat.toDigits 10 n := by
    rw [List.takeWhile_append_of_pos hdigits, hrest.takeWhile, List.append_nil]
  have hdrop : (Nat.toDigits 10 n ++ rest).dropWhile Char.isDigit = rest := by
    rw [List.dropWhile_append_of_pos hdigits, hrest.dropWhile]
  have habsorb : absorb 0 (Nat.toDigits 10 n) = (n, (Nat.toDigits 10 n).length, 0) := by
    have hfits : Nat.ofDigitChars 10 (Nat.toDigits 10 n) 0 < UInt64.size := by rwa [Nat.ofDigitChars_ten_toDigits]
    rw [absorb_eq hfits, Nat.ofDigitChars_ten_toDigits]
  obtain ⟨c, more, hcons⟩ := List.exists_cons_of_ne_nil (Nat.toDigits_ne_nil : Nat.toDigits 10 n ≠ [])
  have hc : c.isDigit = true := hdigits c (by simp [hcons])
  -- A zero in front is the whole number, and no digit follows it.
  have hzero : (decide (c = '0') && (more ++ rest).head?.any Char.isDigit) = false := by
    by_cases hc : c = '0'
    · subst hc
      obtain rfl := Text.eq_zero_of_toDigits hcons
      obtain ⟨-, rfl⟩ := List.cons_eq_cons.mp hcons
      cases rest with
      | nil => rfl
      | cons d rest => simp [(hrest d rfl).1]
    · simp [hc]
  rw [hcons, List.cons_append] at htake hdrop ⊢
  rw [hcons] at habsorb
  simp only [read, hc, hzero, htake, hdrop, habsorb, Bool.not_true, Bool.false_eq_true, if_false, if_true]
  split
  · next after => exact absurd (hrest '.' rfl).2 (by decide)
  · next after => exact absurd (hrest 'e' rfl).2 (by decide)
  · next after => exact absurd (hrest 'E' rfl).2 (by decide)
  · rfl

/-- An integer of 64 bits, signed or unsigned. -/
def Integral : Number → Prop
  | .int value => -2 ^ 63 ≤ value ∧ value < 2 ^ 64
  | .float _ => False

theorem ofInteger_natAbs {value : Int} (h : Integral (.int value)) :
    ofInteger (decide (value < 0)) value.natAbs = .int value := by
  have hpow : Nat.pow 2 63 = 2 ^ 63 := rfl
  obtain ⟨hlow, -⟩ := h
  by_cases hneg : value < 0
  · rw [decide_eq_true hneg, ofInteger, if_neg (by decide), if_pos (by simp; omega)]
    congr 1
    omega
  · rw [decide_eq_false hneg, ofInteger, if_pos (by decide)]
    congr 1
    omega

end Number

/-! ### Tokens as values -/

namespace Outline

theorem read_skipSpace (levels : Nat) (text : List Char) : read levels (skipSpace text) = read levels text := by
  have htwice : skipSpace (skipSpace text) = skipSpace text := List.dropWhile_idempotent ..
  rw [read, read, htwice]

theorem read_minus (levels : Nat) (text : List Char) :
    read levels ('-' :: text) = ofReader .num (Number.read true text) := by
  rw [read, skipSpace_cons (by decide)]
  rfl

theorem read_digit (levels : Nat) {c : Char} (hc : c.isDigit = true) (text : List Char) :
    read levels (c :: text) = ofReader .num (Number.read false (c :: text)) := by
  have hne : ∀ d, d.isDigit = false → c ≠ d := by
    rintro d hd rfl
    rw [hc] at hd
    cases hd
  have hspace : isSpace c = false := by simp [isSpace, hne]
  rw [read, skipSpace_cons hspace]
  simp [hne, hc]

theorem read_number (levels : Nat) {n : Number} (h : n.Integral) {rest : List Char} (hrest : Ends rest) :
    read levels (n.write ++ rest) = ⟨.num n, some rest⟩ := by
  obtain value | value := n
  · have hint := Number.ofInteger_natAbs h
    have hfits : value.natAbs < UInt64.size := by
      have hsize : UInt64.size = 2 ^ 64 := rfl
      obtain ⟨hlow, hhigh⟩ := h
      omega
    have hread := Number.read_toDigits (decide (value < 0)) hfits hrest
    rw [hint] at hread
    rw [Number.write]
    split_ifs with hneg
    · rw [decide_eq_true hneg] at hread
      rw [List.cons_append, read_minus, hread]
      rfl
    · obtain ⟨c, more, hcons⟩ := List.exists_cons_of_ne_nil (Nat.toDigits_ne_nil : Nat.toDigits 10 value.natAbs ≠ [])
      have hc : c.isDigit = true := isDigit_toDigits value.natAbs c (by simp [hcons])
      rw [decide_eq_false hneg, hcons, List.cons_append] at hread
      rw [hcons, List.cons_append, read_digit levels hc, hread]
      rfl
  · exact h.elim

theorem read_string (levels : Nat) (s : String) (rest : List Char) :
    read levels (quote s ++ rest) = ⟨.str s, some rest⟩ := by
  have hread : ofReader .str (readString (s.toList.flatMap escape ++ '"' :: rest)) = ⟨.str s, some rest⟩ := by
    rw [readString_escape]
    rfl
  rw [quote_append, read, skipSpace_cons (by decide)]
  exact hread

theorem read_null (levels : Nat) (rest : List Char) : read levels ("null".toList ++ rest) = ⟨.null, some rest⟩ := by
  have htext : "null".toList ++ rest = 'n' :: 'u' :: 'l' :: 'l' :: rest := rfl
  rw [htext, read, skipSpace_cons (by decide)]
  rfl

theorem read_bool (levels : Nat) (b : Bool) (rest : List Char) :
    read levels ((if b then "true".toList else "false".toList) ++ rest) = ⟨.bool b, some rest⟩ := by
  cases b with
  | true =>
      have htext : "true".toList ++ rest = 't' :: 'r' :: 'u' :: 'e' :: rest := rfl
      rw [if_pos rfl, htext, read, skipSpace_cons (by decide)]
      rfl
  | false =>
      have htext : "false".toList ++ rest = 'f' :: 'a' :: 'l' :: 's' :: 'e' :: rest := rfl
      rw [if_neg (by decide), htext, read, skipSpace_cons (by decide)]
      rfl

end Outline

end RouteBook.Json
