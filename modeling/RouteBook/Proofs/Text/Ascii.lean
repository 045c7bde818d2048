import Mathlib.Tactic
import RouteBook.Text.Bytes

/-! ASCII characters in texts and in byte strings. The bytes of a text below 128 are its ASCII characters and no
part of any other character; read back leniently, an ASCII character stands only where its byte stood. So a
separator such as the slash can be looked for in either form. -/

namespace RouteBook

theorem utf8_eq_flatMap (text : String) : utf8 text = text.toList.flatMap String.utf8EncodeChar := by
  have h : text.toByteArray = text.toList.utf8Encode := String.utf8Encode_toList.symm
  rw [utf8, String.toUTF8_eq_toByteArray, h, List.utf8Encode, List.data_toByteArray]

theorem utf8_append (front back : String) : utf8 (front ++ back) = utf8 front ++ utf8 back := by
  rw [utf8_eq_flatMap, String.toList_append, List.flatMap_append, ← utf8_eq_flatMap, ← utf8_eq_flatMap]

theorem utf8_injective : Function.Injective utf8 := by
  intro a b h
  have hb := utf8?_utf8 b
  rw [← h, utf8?_utf8] at hb
  exact Option.some.inj hb

theorem utf8?_eq_some_iff {bytes : Bytes} {text : String} : utf8? bytes = some text ↔ bytes = utf8 text := by
  constructor
  · intro h
    rw [utf8?, String.fromUTF8?] at h
    split at h
    · cases h
      rfl
    · cases h
  · rintro rfl
    exact utf8?_utf8 text

theorem toNat_ofNat_valid {code : Nat} (h : code.isValidChar) : (Char.ofNat code).toNat = code := by
  rw [Char.ofNat, dif_pos h]
  rfl

/-- The byte of an ASCII character. -/
def asciiByte (c : Char) : UInt8 := UInt8.ofNat c.toNat

theorem eq_asciiByte_of_ofNat {b : UInt8} {c : Char} (h : Char.ofNat b.toNat = c) : b = asciiByte c := by
  have hvalid : b.toNat.isValidChar := Or.inl (by have := b.toNat_lt; omega)
  rw [asciiByte, ← h, toNat_ofNat_valid hvalid, UInt8.ofNat_toNat]

theorem utf8EncodeChar_ascii {c : Char} (hc : c.toNat < 0x80) : String.utf8EncodeChar c = [asciiByte c] := by
  have hle : c.val.toNat ≤ 0x7f := by
    have : c.toNat = c.val.toNat := rfl
    omega
  rw [String.utf8EncodeChar, if_pos hle]
  rfl

private theorem le_toNat_ofNat {n : Nat} (hlow : 0x80 ≤ n) (hhigh : n < 0x100) : 0x80 ≤ (UInt8.ofNat n).toNat := by
  rw [UInt8.toNat_ofNat']
  omega

/-- The bytes of a character that is not ASCII are all above 127. -/
theorem le_of_mem_utf8EncodeChar {c : Char} (hc : 0x80 ≤ c.toNat) {b : UInt8} (h : b ∈ String.utf8EncodeChar c) :
    0x80 ≤ b.toNat := by
  have hval : c.toNat = c.val.toNat := rfl
  rw [String.utf8EncodeChar, if_neg (by omega)] at h
  split_ifs at h <;> simp only [List.mem_cons, List.not_mem_nil, or_false] at h
  · rcases h with rfl | rfl <;> exact le_toNat_ofNat (by omega) (by omega)
  · rcases h with rfl | rfl | rfl <;> exact le_toNat_ofNat (by omega) (by omega)
  · rcases h with rfl | rfl | rfl | rfl <;> exact le_toNat_ofNat (by omega) (by omega)

/-- An ASCII character stands in a text where its byte stands in the text's bytes. -/
theorem asciiByte_mem_utf8_iff {c : Char} (hc : c.toNat < 0x80) {text : String} :
    asciiByte c ∈ utf8 text ↔ c ∈ text.toList := by
  have hbyte : (asciiByte c).toNat = c.toNat := by
    rw [asciiByte, UInt8.toNat_ofNat']
    omega
  rw [utf8_eq_flatMap, List.mem_flatMap]
  constructor
  · rintro ⟨d, hd, hmem⟩
    by_cases hascii : d.toNat < 0x80
    · rw [utf8EncodeChar_ascii hascii, List.mem_singleton] at hmem
      have heq : c.toNat = d.toNat := by
        rw [← hbyte, hmem, asciiByte, UInt8.toNat_ofNat']
        omega
      rwa [Char.toNat_inj.mp heq]
    · have := le_of_mem_utf8EncodeChar (not_lt.mp hascii) hmem
      omega
  · intro h
    exact ⟨c, h, by rw [utf8EncodeChar_ascii hc]; exact List.mem_singleton_self _⟩

/-! ### Endings -/

/-- The bytes of some text. -/
def IsUtf8 (bytes : Bytes) : Prop := ∃ text, bytes = utf8 text

/-- A text without an ASCII character at its end is a text. -/
theorem isUtf8_of_concat {front : Bytes} {b : UInt8} (hb : b.toNat < 0x80) (h : IsUtf8 (front ++ [b])) : IsUtf8 front := by
  obtain ⟨text, htext⟩ := h
  rw [utf8_eq_flatMap] at htext
  rcases List.eq_nil_or_concat' text.toList with hnil | ⟨init, last, hlast⟩
  · rw [hnil] at htext
    simp at htext
  · rw [hlast, List.flatMap_append, List.flatMap_singleton] at htext
    by_cases hascii : last.toNat < 0x80
    · rw [utf8EncodeChar_ascii hascii] at htext
      refine ⟨String.ofList init, ?_⟩
      rw [utf8_eq_flatMap, String.toList_ofList]
      exact (List.append_singleton_inj.mp htext).1
    · -- The last byte of a longer character is above the bytes of ASCII characters.
      have hmem : b ∈ String.utf8EncodeChar last := by
        have hends := congrArg List.getLast? htext
        rw [List.getLast?_concat, List.getLast?_append_of_ne_nil _ (by simp)] at hends
        exact List.mem_of_getLast? hends.symm
      have := le_of_mem_utf8EncodeChar (not_lt.mp hascii) hmem
      omega

theorem isUtf8_of_append {front ending : Bytes} (hending : ∀ b ∈ ending, b.toNat < 0x80) (h : IsUtf8 (front ++ ending)) :
    IsUtf8 front := by
  induction ending using List.reverseRecOn with
  | nil => rwa [List.append_nil] at h
  | append_singleton ending b ih =>
      rw [List.forall_mem_append] at hending
      rw [← List.append_assoc] at h
      exact ih hending.1 (isUtf8_of_concat (hending.2 b (List.mem_singleton_self b)) h)

namespace Bytes

theorem payload_le (value more : Nat) {bytes rest : Bytes} {code : Nat}
    (h : payload value more bytes = (some code, rest)) : value * 64 ^ more ≤ code := by
  induction more generalizing value bytes with
  | zero =>
      cases h
      omega
  | succ more ih =>
      rw [payload] at h
      split at h
      · next b rest' _ =>
        calc value * 64 ^ (more + 1) = value * 64 * 64 ^ more := by rw [pow_succ]; ring
          _ ≤ (value * 64 + b.toNat % 64) * 64 ^ more := Nat.mul_le_mul_right _ (Nat.le_add_right _ _)
          _ ≤ code := ih _ h
      · cases h

theorem continues_range {lo hi b : UInt8} {bytes rest : Bytes} (h : continues lo hi bytes = some (b, rest)) :
    lo ≤ b ∧ b ≤ hi ∧ bytes = b :: rest := by
  cases bytes with
  | nil => cases h
  | cons c cs =>
      simp only [continues, Bool.and_eq_true, decide_eq_true_eq] at h
      split_ifs at h with hrange
      cases h
      exact ⟨hrange.1, hrange.2, rfl⟩

theorem payload_subset (value more : Nat) (bytes : Bytes) : (payload value more bytes).2 ⊆ bytes := by
  induction more generalizing value bytes with
  | zero => exact List.Subset.refl bytes
  | succ more ih =>
      rw [payload]
      split
      · next b rest h =>
        rw [(continues_range h).2.2]
        exact List.Subset.trans (ih _ _) (List.subset_cons_self _ _)
      · exact List.Subset.refl bytes

/-- A lead byte and its second byte, however many bytes follow, make a code beyond ASCII. -/
theorem lead_le {b lo hi c : UInt8} {value more : Nat} (hlead : lead b = some (value, lo, hi, more)) (hlo : lo ≤ c)
    (hhi : c ≤ hi) : 0x80 ≤ (value * 64 + c.toNat % 64) * 64 ^ more := by
  have hlo' := UInt8.le_iff_toNat_le.mp hlo
  have hhi' := UInt8.le_iff_toNat_le.mp hhi
  simp only [lead] at hlead
  split_ifs at hlead <;> simp only [Option.some.injEq, Prod.mk.injEq] at hlead <;>
    obtain ⟨rfl, rfl, rfl, rfl⟩ := hlead <;> simp only [UInt8.reduceToNat] at hlo' hhi' <;> omega

theorem firstChar_subset (b : UInt8) (rest : Bytes) : (firstChar b rest).2 ⊆ rest := by
  unfold firstChar
  split_ifs
  · exact List.Subset.refl rest
  · split
    · exact List.Subset.refl rest
    · next value lo hi more _ =>
      split
      · exact List.Subset.refl rest
      · next c rest' hcontinues =>
        have hpayload := payload_subset (value * 64 + c.toNat % 64) more rest'
        rw [(continues_range hcontinues).2.2]
        split <;> next heq =>
          rw [heq] at hpayload
          exact List.Subset.trans hpayload (List.subset_cons_self _ _)

private theorem ofNat_ne_ascii {code : Nat} (hcode : 0x80 ≤ code) {c : Char} (hc : c.toNat < 0x80) (hzero : c ≠ '\x00') :
    Char.ofNat code ≠ c := by
  intro h
  by_cases hvalid : code.isValidChar
  · rw [← h, toNat_ofNat_valid hvalid] at hc
    omega
  · exact hzero (by rw [← h, Char.ofNat, dif_neg hvalid]; rfl)

/-- A first character that is ASCII is the first byte. -/
theorem eq_asciiByte_of_firstChar {b : UInt8} {rest : Bytes} {c : Char} (hc : c.toNat < 0x80) (hzero : c ≠ '\x00')
    (h : (firstChar b rest).1 = c) : b = asciiByte c := by
  have hreplaced : '\uFFFD' ≠ c := by
    rintro rfl
    exact absurd hc (by decide)
  unfold firstChar at h
  split_ifs at h with hb
  · exact eq_asciiByte_of_ofNat h
  · split at h
    · exact absurd h hreplaced
    · next value lo hi more hlead =>
      split at h
      · exact absurd h hreplaced
      · next d rest' hcontinues =>
        obtain ⟨hlo, hhi, -⟩ := continues_range hcontinues
        split at h
        · next code rest'' hpayload =>
          have hcode := (lead_le hlead hlo hhi).trans (payload_le _ _ hpayload)
          exact absurd h (ofNat_ne_ascii hcode hc hzero)
        · exact absurd h hreplaced

/-- Read leniently, an ASCII character stands only where its byte stood. -/
theorem asciiByte_mem_of_lossyChars {bytes : Bytes} {c : Char} (hc : c.toNat < 0x80) (hzero : c ≠ '\x00')
    (h : c ∈ bytes.lossyChars) : asciiByte c ∈ bytes := by
  fun_induction lossyChars bytes with
  | case1 => cases h
  | case2 b rest hlength ih =>
      rcases List.mem_cons.mp h with heq | hmem
      · rw [eq_asciiByte_of_firstChar hc hzero heq.symm]
        exact List.mem_cons_self
      · exact List.mem_cons_of_mem b (firstChar_subset b rest (ih hmem))

end Bytes

end RouteBook
