import Mathlib.Data.List.TakeWhile
import RouteBook.Http.Query
import RouteBook.Http.Uri
import RouteBook.Proofs.FileTree.Paths
import RouteBook.Text.Html

/-! Texts read back. The bytes of a text, read leniently, are the text; a percent-encoded text is decoded to what it
was; and a target with one encoded field in its query is taken apart into that field. -/

namespace RouteBook

/-! ### Bytes of a text -/

namespace Bytes

theorem toNat_ofNat_lt {n : Nat} (h : n < 256) : (UInt8.ofNat n).toNat = n := by
  rw [UInt8.toNat_ofNat']
  omega

theorem continues_ofNat {lo hi : UInt8} {n : Nat} (hn : n < 256) (hlo : lo.toNat ≤ n) (hhi : n ≤ hi.toNat) (rest : Bytes) :
    continues lo hi (UInt8.ofNat n :: rest) = some (UInt8.ofNat n, rest) := by
  have hlo' : lo ≤ UInt8.ofNat n := by rwa [UInt8.le_iff_toNat_le, toNat_ofNat_lt hn]
  have hhi' : UInt8.ofNat n ≤ hi := by rwa [UInt8.le_iff_toNat_le, toNat_ofNat_lt hn]
  rw [continues, if_pos (by simp [hlo', hhi'])]

/-- A continuation byte adds six bits. -/
theorem payload_ofNat (value more : Nat) {n : Nat} (hn : n < 64) (rest : Bytes) :
    payload value (more + 1) (UInt8.ofNat (n + 128) :: rest) = payload (value * 64 + n) more rest := by
  have hmod : (n + 128) % 64 = n := by omega
  have hbounds : (0x80 : UInt8).toNat ≤ n + 128 ∧ n + 128 ≤ (0xBF : UInt8).toNat := by simp; omega
  rw [payload, continues_ofNat (by omega) hbounds.1 hbounds.2]
  simp only [toNat_ofNat_lt (by omega : n + 128 < 256), hmod]

/-- A lead byte with a second byte in its range starts a character. -/
theorem firstChar_ofNat {b lo hi : UInt8} {value more n : Nat} (hlead : lead b = some (value, lo, hi, more)) (hn : n < 64)
    (hlo : lo.toNat ≤ n + 128) (hhi : n + 128 ≤ hi.toNat) {code : Nat} {rest behind : Bytes}
    (hpayload : payload (value * 64 + n) more rest = (some code, behind)) :
    firstChar b (UInt8.ofNat (n + 128) :: rest) = (Char.ofNat code, behind) := by
  have hb : ¬b < 0x80 := by
    intro hb
    rw [lead, if_pos (by have := UInt8.lt_iff_toNat_lt.mp hb; simp at this; omega)] at hlead
    cases hlead
  have hmod : (n + 128) % 64 = n := by omega
  rw [firstChar, if_neg hb, hlead]
  simp only [continues_ofNat (by omega : n + 128 < 256) hlo hhi, toNat_ofNat_lt (by omega : n + 128 < 256), hmod, hpayload]

/-- The lead byte of two bytes. -/
theorem lead_two {v : Nat} (hlow : 0x7f < v) (hhigh : v ≤ 0x7ff) :
    lead (UInt8.ofNat (v / 64 % 32 + 192)) = some (v / 64, 0x80, 0xBF, 0) := by
  have hbyte : (UInt8.ofNat (v / 64 % 32 + 192)).toNat = v / 64 + 192 := by
    rw [toNat_ofNat_lt (by omega)]
    omega
  simp only [lead, hbyte]
  rw [if_neg (by omega), if_pos (by omega), show (v / 64 + 192) % 32 = v / 64 by omega]

/-- The lead byte of three bytes asks for a second byte as there is one. -/
theorem lead_three {v : Nat} (hlow : 0x7ff < v) (hhigh : v ≤ 0xffff) (hvalid : v < 0xd800 ∨ 0xdfff < v) :
    ∃ lo hi, lead (UInt8.ofNat (v / 4096 % 16 + 224)) = some (v / 4096, lo, hi, 1) ∧
      lo.toNat ≤ v / 64 % 64 + 128 ∧ v / 64 % 64 + 128 ≤ hi.toNat := by
  have hbyte : (UInt8.ofNat (v / 4096 % 16 + 224)).toNat = v / 4096 + 224 := by
    rw [toNat_ofNat_lt (by omega)]
    omega
  simp only [lead, hbyte]
  rw [if_neg (by omega), if_neg (by omega)]
  by_cases hfirst : v / 4096 = 0
  · refine ⟨0xA0, 0xBF, by rw [if_pos (by omega), hfirst], ?_, ?_⟩ <;> simp only [UInt8.reduceToNat] <;> omega
  · rw [if_neg (by omega)]
    by_cases hlast : v / 4096 = 13
    · refine ⟨0x80, 0x9F, by rw [if_pos (by omega), hlast], ?_, ?_⟩ <;> simp only [UInt8.reduceToNat] <;> omega
    · refine ⟨0x80, 0xBF, ?_, ?_, ?_⟩
      · rw [if_neg (by omega), if_pos (by omega), show (v / 4096 + 224) % 16 = v / 4096 by omega]
      all_goals simp only [UInt8.reduceToNat]; omega

theorem lead_four {v : Nat} (hlow : 0xffff < v) (hhigh : v < 0x110000) :
    ∃ lo hi, lead (UInt8.ofNat (v / 262144 % 8 + 240)) = some (v / 262144, lo, hi, 2) ∧
      lo.toNat ≤ v / 4096 % 64 + 128 ∧ v / 4096 % 64 + 128 ≤ hi.toNat := by
  have hbyte : (UInt8.ofNat (v / 262144 % 8 + 240)).toNat = v / 262144 + 240 := by
    rw [toNat_ofNat_lt (by omega)]
    omega
  simp only [lead, hbyte]
  rw [if_neg (by omega), if_neg (by omega), if_neg (by omega), if_neg (by omega), if_neg (by omega)]
  by_cases hfirst : v / 262144 = 0
  · refine ⟨0x90, 0xBF, by rw [if_pos (by omega), hfirst], ?_, ?_⟩ <;> simp only [UInt8.reduceToNat] <;> omega
  · rw [if_neg (by omega)]
    by_cases hlast : v / 262144 = 4
    · refine ⟨0x80, 0x8F, by rw [if_neg (by omega), if_pos (by omega), hlast], ?_, ?_⟩ <;>
        simp only [UInt8.reduceToNat] <;> omega
    · refine ⟨0x80, 0xBF, ?_, ?_, ?_⟩
      · rw [if_pos (by omega), show (v / 262144 + 240) % 8 = v / 262144 by omega]
      all_goals simp only [UInt8.reduceToNat]; omega

/-- A byte string that starts with the bytes of a character is read as this character first. -/
theorem firstChar_utf8EncodeChar (c : Char) (rest : Bytes) :
    ∃ b more, String.utf8EncodeChar c = b :: more ∧ firstChar b (more ++ rest) = (c, rest) := by
  have hchar : Char.ofNat c.val.toNat = c := Char.ofNat_toNat c
  have hvalid : c.val.toNat < 0xd800 ∨ 0xdfff < c.val.toNat ∧ c.val.toNat < 0x110000 := c.valid
  rw [String.utf8EncodeChar]
  generalize c.val.toNat = v at hchar hvalid
  -- One case for each number of bytes; with three of them the surrogates have to be kept out.
  split_ifs with hone htwo hthree
  · refine ⟨_, [], rfl, ?_⟩
    have hbyte : UInt8.ofNat v < 0x80 := by
      rw [UInt8.lt_iff_toNat_lt, toNat_ofNat_lt (by omega)]
      exact Nat.lt_succ_of_le hone
    rw [firstChar, if_pos hbyte, toNat_ofNat_lt (by omega), hchar, List.nil_append]
  · refine ⟨_, _, rfl, ?_⟩
    have hcode : v / 64 * 64 + v % 64 = v := by omega
    rw [List.cons_append, firstChar_ofNat (lead_two (by omega) htwo) (by omega) (by simp) (by simp; omega) rfl, hcode,
      hchar]
    rfl
  · obtain ⟨lo, hi, hlead, hlo, hhi⟩ := lead_three (by omega : 0x7ff < v) hthree (by omega)
    refine ⟨_, _, rfl, ?_⟩
    have hcode : (v / 4096 * 64 + v / 64 % 64) * 64 + v % 64 = v := by omega
    have hpayload := payload_ofNat (v / 4096 * 64 + v / 64 % 64) 0 (by omega : v % 64 < 64) rest
    rw [List.cons_append, List.singleton_append, firstChar_ofNat hlead (by omega) hlo hhi hpayload, hcode, hchar]
  · obtain ⟨lo, hi, hlead, hlo, hhi⟩ := lead_four (by omega : 0xffff < v) (by omega)
    refine ⟨_, _, rfl, ?_⟩
    have hcode : ((v / 262144 * 64 + v / 4096 % 64) * 64 + v / 64 % 64) * 64 + v % 64 = v := by omega
    have hpayload := (payload_ofNat (v / 262144 * 64 + v / 4096 % 64) 1 (by omega : v / 64 % 64 < 64)
      (UInt8.ofNat (v % 64 + 128) :: rest)).trans (payload_ofNat _ 0 (by omega : v % 64 < 64) rest)
    rw [List.cons_append, List.cons_append, List.singleton_append, firstChar_ofNat hlead (by omega) hlo hhi hpayload,
      hcode, hchar]

/-- The bytes of a character are read as that character. -/
theorem lossyChars_utf8EncodeChar (c : Char) (rest : Bytes) :
    lossyChars (String.utf8EncodeChar c ++ rest) = c :: lossyChars rest := by
  obtain ⟨b, more, hencode, hread⟩ := firstChar_utf8EncodeChar c rest
  rw [hencode, List.cons_append, lossyChars, hread]

theorem firstChar?_eq_some_iff {bytes rest : Bytes} {c : Char} :
    firstChar? bytes = some (c, rest) ↔ bytes = String.utf8EncodeChar c ++ rest := by
  constructor
  · intro h
    cases bytes with
    | nil => cases h
    | cons b more =>
        simp only [firstChar?] at h
        split_ifs at h with hbytes
        cases h
        exact hbytes
  · rintro rfl
    obtain ⟨b, more, hencode, hread⟩ := firstChar_utf8EncodeChar c rest
    rw [hencode, List.cons_append, firstChar?, hread]
    exact if_pos (by rw [hencode, List.cons_append])

end Bytes

theorem lossy_utf8 (text : String) : lossy (utf8 text) = text := by
  have hchars : ∀ chars : List Char, Bytes.lossyChars (chars.flatMap String.utf8EncodeChar) = chars := by
    intro chars
    induction chars with
    | nil => rw [List.flatMap_nil, Bytes.lossyChars]
    | cons c chars ih => rw [List.flatMap_cons, Bytes.lossyChars_utf8EncodeChar, ih]
  rw [lossy, utf8_eq_flatMap, hchars, String.ofList_toList]

theorem length_utf8 (text : String) : (utf8 text).length = text.utf8ByteSize := by
  simp [utf8]

theorem utf8_ascii {text : String} (h : ∀ c ∈ text.toList, c.toNat < 0x80) : utf8 text = text.toList.map asciiByte := by
  rw [utf8_eq_flatMap]
  generalize text.toList = chars at h ⊢
  induction chars with
  | nil => rfl
  | cons c chars ih =>
      rw [List.flatMap_cons, utf8EncodeChar_ascii (h c List.mem_cons_self), List.map_cons,
        ih fun other hother => h other (List.mem_cons_of_mem c hother)]
      rfl

/-! ### Percent signs -/

namespace Text

theorem forall_byte {p : UInt8 → Prop} (h : ∀ n < 256, p (UInt8.ofNat n)) (b : UInt8) : p b := by
  have hb := h b.toNat b.toNat_lt
  rwa [UInt8.ofNat_toNat] at hb

/-- The way a byte stands in an encoded text. -/
def encodeByte (b : UInt8) : List Char := if isUnreserved b then [Char.ofNat b.toNat] else percentByte b

theorem toList_percentEncode (bytes : Bytes) : (percentEncode bytes).toList = bytes.flatMap encodeByte := by
  rw [percentEncode, String.toList_ofList]
  rfl

/-- The characters of encoded texts: ASCII characters that may stand in a query and take no form apart. -/
structure IsEncoded (c : Char) : Prop where
  ascii : c.toNat < 0x80
  query : Http.Uri.isQueryChar c = true
  plain : asciiByte c ≠ 38 ∧ asciiByte c ≠ 43 ∧ asciiByte c ≠ 61

instance (c : Char) : Decidable (IsEncoded c) :=
  decidable_of_iff (c.toNat < 0x80 ∧ Http.Uri.isQueryChar c = true ∧ asciiByte c ≠ 38 ∧ asciiByte c ≠ 43 ∧ asciiByte c ≠ 61)
    ⟨fun h => ⟨h.1, h.2.1, h.2.2⟩, fun h => ⟨h.ascii, h.query, h.plain⟩⟩

theorem isEncoded_of_mem_encodeByte (b : UInt8) : ∀ c ∈ encodeByte b, IsEncoded c := by
  have hall : ∀ b : UInt8, (encodeByte b).all (fun c => decide (IsEncoded c)) = true := forall_byte (by decide +kernel)
  intro c hc
  exact of_decide_eq_true (List.all_eq_true.mp (hall b) c hc)

theorem isEncoded_of_mem_percentEncode {bytes : Bytes} {c : Char} (h : c ∈ (percentEncode bytes).toList) : IsEncoded c := by
  rw [toList_percentEncode, List.mem_flatMap] at h
  obtain ⟨b, -, hc⟩ := h
  exact isEncoded_of_mem_encodeByte b c hc

theorem utf8_percentEncode (bytes : Bytes) :
    utf8 (percentEncode bytes) = bytes.flatMap fun b => (encodeByte b).map asciiByte := by
  rw [utf8_ascii fun c hc => (isEncoded_of_mem_percentEncode hc).ascii, toList_percentEncode, List.map_flatMap]

theorem plain_of_mem_percentEncode {bytes : Bytes} {b : UInt8} (h : b ∈ utf8 (percentEncode bytes)) :
    b ≠ 38 ∧ b ≠ 43 ∧ b ≠ 61 := by
  rw [utf8_percentEncode, List.mem_flatMap] at h
  obtain ⟨source, -, hb⟩ := h
  obtain ⟨c, hc, rfl⟩ := List.mem_map.mp hb
  exact (isEncoded_of_mem_encodeByte source c hc).plain

theorem length_percentEncode (bytes : Bytes) : (utf8 (percentEncode bytes)).length ≤ 3 * bytes.length := by
  have hbyte : ∀ b : UInt8, (encodeByte b).length ≤ 3 := by
    intro b
    unfold encodeByte
    split_ifs <;> simp [percentByte]
  rw [utf8_percentEncode]
  induction bytes with
  | nil => simp
  | cons b bytes ih =>
      rw [List.flatMap_cons, List.length_append, List.length_map, List.length_cons]
      have := hbyte b
      omega

theorem percentDecode_cons {b : UInt8} (hb : b ≠ 37) (rest : Bytes) :
    Http.percentDecode (b :: rest) = b :: Http.percentDecode rest :=
  Http.percentDecode.eq_2 b rest fun _ _ _ heq _ => hb heq

/-- A byte is decoded from the way it stands in an encoded text. -/
theorem percentDecode_encodeByte (b : UInt8) (rest : Bytes) :
    Http.percentDecode ((encodeByte b).map asciiByte ++ rest) = b :: Http.percentDecode rest := by
  have hpercent : isUnreserved 37 = false := by decide
  have hdigit : ∀ n < 16, Http.hexValue? (asciiByte (upperHexDigit n)) = some (UInt8.ofNat n) := by decide
  have hbyte : b.toNat < 256 := b.toNat_lt
  unfold encodeByte
  split_ifs with hself
  · have hne : b ≠ 37 := fun heq => by rw [heq, hpercent] at hself; cases hself
    rw [List.map_singleton, ← eq_asciiByte_of_ofNat rfl, List.singleton_append, percentDecode_cons hne]
  · have hjoin : UInt8.ofNat (b.toNat / 16) * 16 + UInt8.ofNat (b.toNat % 16) = b := by
      rw [← UInt8.toNat_inj, UInt8.toNat_add, UInt8.toNat_mul, UInt8.toNat_ofNat', UInt8.toNat_ofNat']
      simp only [UInt8.reduceToNat]
      omega
    have hform : (percentByte b).map asciiByte ++ rest =
        37 :: asciiByte (upperHexDigit (b.toNat / 16)) :: asciiByte (upperHexDigit (b.toNat % 16)) :: rest := rfl
    rw [hform, Http.percentDecode, hdigit _ (by omega), hdigit _ (by omega)]
    simp only [hjoin]

theorem percentDecode_percentEncode (bytes : Bytes) : Http.percentDecode (utf8 (percentEncode bytes)) = bytes := by
  rw [utf8_percentEncode]
  induction bytes with
  | nil => rfl
  | cons b bytes ih => rw [List.flatMap_cons, percentDecode_encodeByte, ih]

/-- An encoded text is read as what it was. -/
theorem formDecode_percentEncode (text : String) : Http.formDecode (utf8 (percentEncode (utf8 text))) = text := by
  have hplus : ((utf8 (percentEncode (utf8 text))).map fun b => if b = 43 then 32 else b) =
      utf8 (percentEncode (utf8 text)) := by
    rw [List.map_congr_left fun b hb => if_neg (plain_of_mem_percentEncode hb).2.1, List.map_id']
  rw [Http.formDecode, hplus, percentDecode_percentEncode, lossy_utf8]

end Text

/-! ### Targets -/

namespace Http

open Text (percentEncode)

/-- The query of a form with one field. -/
def fieldQuery (name value : String) : List Char := name.toList ++ '=' :: (percentEncode (utf8 value)).toList

/-- A form with one field, whose name is plain, is read as that field. -/
theorem formPairs_fieldQuery {name : String} (hname : ∀ b ∈ utf8 name, b ≠ 38 ∧ b ≠ 61) (value : String) :
    formPairs (utf8 (String.ofList (fieldQuery name value))) = [(formDecode (utf8 name), value)] := by
  have hquery : String.ofList (fieldQuery name value) = name ++ ("=" ++ percentEncode (utf8 value)) := by
    apply String.toList_injective
    simp [fieldQuery]
  have hbytes : utf8 (String.ofList (fieldQuery name value)) = utf8 name ++ 61 :: utf8 (percentEncode (utf8 value)) := by
    rw [hquery, utf8_append, utf8_append]
    rfl
  have hsingle : 38 ∉ utf8 name ++ 61 :: utf8 (percentEncode (utf8 value)) := by
    rw [List.mem_append, List.mem_cons, not_or, not_or]
    exact ⟨fun hmem => (hname 38 hmem).1 rfl, by decide, fun hmem => (Text.plain_of_mem_percentEncode hmem).1 rfl⟩
  have htake : (utf8 name ++ 61 :: utf8 (percentEncode (utf8 value))).takeWhile (· ≠ 61) = utf8 name := by
    have hkeep : ∀ b ∈ utf8 name, decide (b ≠ 61) = true := fun b hb => decide_eq_true (hname b hb).2
    rw [List.takeWhile_append_of_pos hkeep, List.takeWhile_cons_of_neg (by simp), List.append_nil]
  have hdrop : (utf8 name ++ 61 :: utf8 (percentEncode (utf8 value))).drop ((utf8 name).length + 1) =
      utf8 (percentEncode (utf8 value)) := by
    rw [List.drop_append]
    simp
  rw [hbytes, formPairs, Text.pieces_of_not_mem hsingle, List.filter_cons_of_pos (by simp), List.filter_nil,
    List.map_singleton]
  simp only [htake, hdrop, Text.formDecode_percentEncode]

theorem isQueryChar_fieldQuery {name : String} (hname : ∀ c ∈ name.toList, Uri.isQueryChar c = true) (value : String) :
    ∀ c ∈ fieldQuery name value, Uri.isQueryChar c = true := by
  intro c hc
  rw [fieldQuery, List.mem_append, List.mem_cons] at hc
  rcases hc with hc | rfl | hc
  · exact hname c hc
  · decide
  · exact (Text.isEncoded_of_mem_percentEncode hc).query

theorem parsePath_query {path query : List Char} (hne : path ≠ []) (hpath : ∀ c ∈ path, Uri.isPathChar c = true)
    (hquery : ∀ c ∈ query, Uri.isQueryChar c = true) : Uri.parsePath (path ++ '?' :: query) = .ok (path, some query) := by
  have htake : (path ++ '?' :: query).takeWhile Uri.isPathChar = path := by
    rw [List.takeWhile_append_of_pos hpath, List.takeWhile_cons_of_neg (by decide), List.append_nil]
  have hdrop : (path ++ '?' :: query).dropWhile Uri.isPathChar = '?' :: query := by
    rw [List.dropWhile_append_of_pos hpath, List.dropWhile_cons_of_neg (by decide)]
  have hall : query.dropWhile Uri.isQueryChar = [] := List.dropWhile_eq_nil_iff.mpr hquery
  simp only [Uri.parsePath, htake, hdrop, hall, if_neg hne]

/-- A target with one field in its query. -/
theorem parse_fieldQuery {path name value : String} (hslash : path.toList.head? = some '/')
    (hpath : ∀ c ∈ path.toList, Uri.isPathChar c = true) (hname : ∀ c ∈ name.toList, Uri.isQueryChar c = true)
    (hlength : (utf8 path).length + (utf8 name).length + 3 * (utf8 value).length + 2 ≤ Uri.sizeLimit) :
    Uri.parse (path ++ "?" ++ name ++ "=" ++ percentEncode (utf8 value)) =
      .ok ⟨none, [], path.toList, some (fieldQuery name value)⟩ := by
  have htext : (path ++ "?" ++ name ++ "=" ++ percentEncode (utf8 value)).toList =
      path.toList ++ '?' :: fieldQuery name value := by
    simp [fieldQuery]
  have hsize : ¬Uri.sizeLimit < (path ++ "?" ++ name ++ "=" ++ percentEncode (utf8 value)).utf8ByteSize := by
    have hencoded := Text.length_percentEncode (utf8 value)
    have hsigns : (utf8 "?").length = 1 ∧ (utf8 "=").length = 1 := by decide
    rw [← length_utf8, utf8_append, utf8_append, utf8_append, utf8_append]
    simp only [List.length_append, hsigns]
    omega
  obtain ⟨more, hpath'⟩ : ∃ more, path.toList = '/' :: more := by
    cases hcase : path.toList with
    | nil => rw [hcase] at hslash; cases hslash
    | cons c more => exact ⟨more, by rw [hcase] at hslash; rw [Option.some.inj hslash]⟩
  have hparse := parsePath_query (by rw [hpath']; simp) hpath (isQueryChar_fieldQuery hname value)
  rw [Uri.parse, htext]
  simp only [bind, Except.bind, if_neg hsize]
  rw [hpath'] at hparse ⊢
  simp only [List.cons_append] at hparse ⊢
  rw [hparse]

end Http

end RouteBook
