import RouteBook.Json.Skip
import RouteBook.Proofs.Json.Spelling
import RouteBook.Proofs.Text.Traversal

/-! The grammar of JSON, apart from any reading: which texts are values, and what a string says. Strings are read by it: a string
is taken if it is written as the grammar has it, whatever stands behind it. -/

namespace RouteBook.Json

open Text (Denotes IsDigitOf)

variable {text text' rest rest' : List Char} {c d : Char} {n : Nat} {s : String}

/-! ### Strings -/

/-- The letters that may follow a backslash, each with the character that it stands for there. -/
def escapes : List (Char × Char) :=
  [('"', '"'), ('\\', '\\'), ('/', '/'), ('b', '\x08'), ('f', '\x0c'), ('n', '\n'), ('r', '\r'), ('t', '\t')]

/-- Four hexadecimal digits. -/
def Hex (digits : List Char) (n : Nat) : Prop := digits.length = 4 ∧ Denotes 16 digits n

/-- An escape behind its backslash, and the character that it stands for: one of the letters, or a number in UTF-16, where a
character beyond the first plane takes two. -/
inductive Escape : List Char → Char → Prop
  | letter {letter c : Char} (h : (letter, c) ∈ escapes) : Escape [letter] c
  | unit {digits : List Char} {n : Nat} (h : Hex digits n) (hn : ¬(0xD800 ≤ n ∧ n ≤ 0xDFFF)) :
    Escape ('u' :: digits) (Char.ofNat n)
  | pair {high low : List Char} {n m : Nat} (hhigh : Hex high n) (hlow : Hex low m) (hn : 0xD800 ≤ n ∧ n ≤ 0xDBFF)
    (hm : 0xDC00 ≤ m ∧ m ≤ 0xDFFF) :
    Escape ('u' :: (high ++ '\\' :: 'u' :: low)) (Char.ofNat ((n - 0xD800) * 1024 + (m - 0xDC00) + 0x10000))

/-- A string behind its opening quote, and the characters that it says. -/
inductive Literal : List Char → List Char → Prop
  | close : Literal ['"'] []
  | plain {c : Char} {text cs : List Char} (hquote : c ≠ '"') (hbackslash : c ≠ '\\') (hcontrol : 0x20 ≤ c.toNat)
    (h : Literal text cs) : Literal (c :: text) (c :: cs)
  | escape {mark text cs : List Char} {c : Char} (hmark : Escape mark c) (h : Literal text cs) :
    Literal ('\\' :: (mark ++ text)) (c :: cs)

/-- The form of an escape behind its backslash. -/
inductive Marked : List Char → Prop
  | letter {letter c : Char} (h : (letter, c) ∈ escapes) : Marked [letter]
  | unit {digits : List Char} {n : Nat} (h : Hex digits n) : Marked ('u' :: digits)

/-- The form of a string behind its opening quote. It need not say anything, as half of a pair stands for no character. -/
inductive Quoted : List Char → Prop
  | close : Quoted ['"']
  | plain {c : Char} {text : List Char} (hquote : c ≠ '"') (hbackslash : c ≠ '\\') (hcontrol : 0x20 ≤ c.toNat)
    (h : Quoted text) : Quoted (c :: text)
  | escape {mark text : List Char} (hmark : Marked mark) (h : Quoted text) : Quoted ('\\' :: (mark ++ text))

theorem Literal.quoted {cs : List Char} (h : Literal text cs) : Quoted text := by
  induction h with
  | close => exact .close
  | plain hquote hbackslash hcontrol _ ih => exact .plain hquote hbackslash hcontrol ih
  | escape hmark _ ih =>
      cases hmark with
      | letter h => exact .escape (.letter h) ih
      | unit h _ => exact .escape (.unit h) ih
      | pair hhigh hlow _ _ =>
          have hboth := Quoted.escape (.unit hhigh) (.escape (.unit hlow) ih)
          simpa using hboth

/-- A string with its quotes, and what it says. -/
def IsText (text : List Char) (s : String) : Prop := ∃ body, text = '"' :: body ∧ Literal body s.toList

/-! ### Values -/

/-- One digit or more. -/
def Digits (text : List Char) : Prop := text ≠ [] ∧ ∀ c ∈ text, c.isDigit = true

inductive Fraction : List Char → Prop
  | none : Fraction []
  | digits {text : List Char} (h : Digits text) : Fraction ('.' :: text)

inductive Exponent : List Char → Prop
  | none : Exponent []
  | digits {mark : Char} {sign text : List Char} (hmark : mark ∈ ['e', 'E']) (hsign : sign ∈ [[], ['+'], ['-']])
    (h : Digits text) : Exponent (mark :: (sign ++ text))

/-- A number without its sign. -/
inductive Unsigned : List Char → Prop
  | mk {whole fraction exponent : List Char} (hwhole : Digits whole) (hzero : whole.head? = some '0' → whole = ['0'])
    (hfraction : Fraction fraction) (hexponent : Exponent exponent) : Unsigned (whole ++ (fraction ++ exponent))

/-- What stands before an item: white space, and a comma unless it is the first. -/
inductive Lead : Bool → List Char → Prop
  | first {gap : List Char} (hgap : Blank gap) : Lead true gap
  | later {gap gap' : List Char} (hgap : Blank gap) (hgap' : Blank gap') : Lead false (gap ++ ',' :: gap')

/-- What a text may be: a value, or what stands behind the opening bracket of an array or an object, up to its closing one,
with the texts of the items, or of the keys behind their opening quotes and the values; `first` holds before the first one. -/
inductive Nonterminal
  | value
  | items (first : Bool) (values : List (List Char))
  | members (first : Bool) (members : List (List Char × List Char))

/-- The grammar of JSON. -/
inductive Form : Nonterminal → List Char → Prop
  | null : Form .value "null".toList
  | bool (b : Bool) : Form .value (if b then "true".toList else "false".toList)
  | positive {text : List Char} (h : Unsigned text) : Form .value text
  | negative {text : List Char} (h : Unsigned text) : Form .value ('-' :: text)
  | string {text : List Char} (h : Quoted text) : Form .value ('"' :: text)
  | array {text : List Char} {values : List (List Char)} (h : Form (.items true values) text) : Form .value ('[' :: text)
  | object {text : List Char} {members : List (List Char × List Char)} (h : Form (.members true members) text) :
    Form .value ('{' :: text)
  | endItems {first : Bool} {gap : List Char} (hgap : Blank gap) : Form (.items first []) (gap ++ [']'])
  | item {first : Bool} {lead value more : List Char} {values : List (List Char)} (hlead : Lead first lead)
    (hvalue : Form .value value) (hmore : Form (.items false values) more) :
    Form (.items first (value :: values)) (lead ++ (value ++ more))
  | endMembers {first : Bool} {gap : List Char} (hgap : Blank gap) : Form (.members first []) (gap ++ ['}'])
  | member {first : Bool} {lead key gap gap' value more : List Char} {members : List (List Char × List Char)}
    (hlead : Lead first lead) (hkey : Quoted key) (hgap : Blank gap) (hgap' : Blank gap') (hvalue : Form .value value)
    (hmore : Form (.members false members) more) :
    Form (.members first ((key, value) :: members)) (lead ++ '"' :: (key ++ (gap ++ ':' :: (gap' ++ (value ++ more)))))

/-! ### How strings are read -/

theorem hexValue?_eq_some_iff : hexValue? c = some n ↔ IsDigitOf 16 c n := by
  have htable : ∀ c : Char, c.toNat < 128 → ∀ d < 16, hexValue? c = some d ↔ c.toLower = Nat.digitChar d :=
    Text.forall_ascii (by decide +kernel)
  have hsmall : ∀ c : Char, c.toNat < 128 → ∀ d ∈ hexValue? c, d < 16 := Text.forall_ascii (by decide +kernel)
  constructor
  · intro h
    have hascii : c.toNat < 128 := by
      have hvalue := h
      unfold hexValue? at hvalue
      have hle : ∀ d : Char, c ≤ d → c.toNat ≤ d.toNat := fun d hd => UInt32.le_iff_toNat_le.mp hd
      split_ifs at hvalue with hdigit hlower hupper
      · rw [Char.isDigit, Bool.and_eq_true, decide_eq_true_eq, decide_eq_true_eq] at hdigit
        exact (hle '9' hdigit.2).trans_lt (by decide)
      · rw [Bool.and_eq_true, decide_eq_true_eq, decide_eq_true_eq] at hlower
        exact (hle 'f' hlower.2).trans_lt (by decide)
      · rw [Bool.and_eq_true, decide_eq_true_eq, decide_eq_true_eq] at hupper
        exact (hle 'F' hupper.2).trans_lt (by decide)
    have hn := hsmall c hascii n h
    exact ⟨hn, (htable c hascii n hn).mp h⟩
  · intro h
    exact (htable c (h.ascii le_rfl) n h.1).mpr h.2

theorem readHex_eq_ok_iff : readHex text = .ok (n, rest) ↔ ∃ digits, Hex digits n ∧ text = digits ++ rest := by
  constructor
  · intro h
    unfold readHex at h
    split_ifs at h
    split at h
    · next a b c d more _ =>
      split at h
      · next a' b' c' d' ha hb hc hd =>
        cases h
        rw [hexValue?_eq_some_iff] at ha hb hc hd
        have hdenotes := (((Denotes.nil.snoc ha).snoc hb).snoc hc).snoc hd
        rw [Nat.zero_mul, Nat.zero_add] at hdenotes
        exact ⟨[a, b, c, d], ⟨rfl, hdenotes⟩, rfl⟩
      · cases h
    · cases h
  · rintro ⟨digits, ⟨hlength, hfour⟩, rfl⟩
    obtain ⟨a, b, c, d, rfl⟩ := List.length_eq_four.mp hlength
    obtain ⟨i, d', hthree, hd, rfl⟩ := Text.denotes_concat_iff.mp (show Denotes 16 ([a, b, c] ++ [d]) n from hfour)
    obtain ⟨j, c', htwo, hc, rfl⟩ := Text.denotes_concat_iff.mp (show Denotes 16 ([a, b] ++ [c]) i from hthree)
    obtain ⟨k, b', hone, hb, rfl⟩ := Text.denotes_concat_iff.mp (show Denotes 16 ([a] ++ [b]) j from htwo)
    obtain ⟨l, a', hnone, ha, rfl⟩ := Text.denotes_concat_iff.mp (show Denotes 16 ([] ++ [a]) k from hone)
    obtain rfl := Text.denotes_nil_iff.mp hnone
    rw [← hexValue?_eq_some_iff] at ha hb hc hd
    have hbytes := length_le_byteLength (a :: b :: c :: d :: rest)
    simp only [List.length_cons] at hbytes
    rw [List.cons_append, List.cons_append, List.cons_append, List.singleton_append, readHex, if_neg (by omega)]
    simp only [ha, hb, hc, hd, Nat.zero_mul, Nat.zero_add]

theorem Hex.readHex {digits : List Char} (h : Hex digits n) (rest : List Char) : readHex (digits ++ rest) = .ok (n, rest) :=
  readHex_eq_ok_iff.mpr ⟨digits, h, rfl⟩

/-- A `\u` escape is four digits for a character, or four for a surrogate with its partner in a second escape. -/
theorem readUnicode_eq_ok_iff :
    readUnicode text = .ok (c, rest) ↔
      (∃ n, readHex text = .ok (n, rest) ∧ isTrailing n = false ∧ isLeading n = false ∧ c = Char.ofNat n) ∨
      ∃ n behind m, readHex text = .ok (n, '\\' :: 'u' :: behind) ∧ readHex behind = .ok (m, rest) ∧ isTrailing n = false ∧
        isLeading n = true ∧ isTrailing m = true ∧ c = Char.ofNat ((n - 0xD800) * 1024 + (m - 0xDC00) + 0x10000) := by
  constructor
  · intro h
    unfold readUnicode at h
    split at h
    · cases h
    · next n behind hfirst =>
      split_ifs at h with htrailing hleading
      · split at h
        · cases h
        · cases h
        · split at h
          · cases h
          · next m _ hsecond =>
            split_ifs at h with hpartner
            obtain ⟨hc, rfl⟩ := Prod.mk.inj (Except.ok.inj h)
            exact Or.inr ⟨n, _, m, hfirst, hsecond, by simpa using htrailing, hleading, hpartner, hc.symm⟩
        · cases h
        · cases h
      · cases h
        exact Or.inl ⟨n, hfirst, by simpa using htrailing, by simpa using hleading, rfl⟩
  · rintro (⟨n, hfirst, htrailing, hleading, rfl⟩ | ⟨n, behind, m, hfirst, hsecond, htrailing, hleading, hpartner, hc⟩)
    · simp [readUnicode, hfirst, htrailing, hleading]
    · simp only [readUnicode, hfirst, hsecond, htrailing, hleading, hpartner, hc, Bool.false_eq_true, if_false, if_true]

theorem isLeading_iff : isLeading n = true ↔ 0xD800 ≤ n ∧ n ≤ 0xDBFF := by simp [isLeading]

theorem isTrailing_iff : isTrailing n = true ↔ 0xDC00 ≤ n ∧ n ≤ 0xDFFF := by simp [isTrailing]

theorem shortEscape?_eq_some_iff : shortEscape? c = some d ↔ (c, d) ∈ escapes := by
  constructor
  · intro h
    unfold shortEscape? at h
    split_ifs at h with hself hback hfeed hnewline hreturn htab
    · simp only [Bool.or_eq_true, decide_eq_true_eq] at hself
      cases h
      rcases hself with (rfl | rfl) | rfl <;> decide
    all_goals
      subst c
      cases h
      decide
  · intro h
    simp only [escapes, List.mem_cons, Prod.mk.injEq, List.not_mem_nil, or_false] at h
    rcases h with ⟨rfl, rfl⟩ | ⟨rfl, rfl⟩ | ⟨rfl, rfl⟩ | ⟨rfl, rfl⟩ | ⟨rfl, rfl⟩ | ⟨rfl, rfl⟩ | ⟨rfl, rfl⟩ | ⟨rfl, rfl⟩
    all_goals rfl

theorem shortEscape?_u : shortEscape? 'u' = none := by decide

theorem readEscape_eq_ok_iff : readEscape text = .ok (c, rest) ↔ ∃ mark, Escape mark c ∧ text = mark ++ rest := by
  constructor
  · intro h
    unfold readEscape at h
    split at h
    · cases h
    · next letter behind =>
      split at h
      · next d hshort =>
        cases h
        exact ⟨[letter], .letter (shortEscape?_eq_some_iff.mp hshort), rfl⟩
      · split_ifs at h with hu
        subst hu
        obtain ⟨n, hfirst, htrailing, hleading, rfl⟩ | ⟨n, middle, m, hfirst, hsecond, -, hleading, hpartner, hc⟩ :=
          readUnicode_eq_ok_iff.mp h
        · obtain ⟨digits, hdigits, rfl⟩ := readHex_eq_ok_iff.mp hfirst
          rw [Bool.eq_false_iff, Ne, isTrailing_iff] at htrailing
          rw [Bool.eq_false_iff, Ne, isLeading_iff] at hleading
          exact ⟨'u' :: digits, .unit hdigits (by omega), rfl⟩
        · obtain ⟨high, hhigh, rfl⟩ := readHex_eq_ok_iff.mp hfirst
          obtain ⟨low, hlow, rfl⟩ := readHex_eq_ok_iff.mp hsecond
          rw [hc]
          exact ⟨'u' :: (high ++ '\\' :: 'u' :: low), .pair hhigh hlow (isLeading_iff.mp hleading) (isTrailing_iff.mp hpartner),
            by simp⟩
  · rintro ⟨mark, hmark, rfl⟩
    cases hmark with
    | letter h => simp [readEscape, shortEscape?_eq_some_iff.mpr h]
    | @unit digits n h hn =>
        have htrailing : isTrailing n = false := by rw [Bool.eq_false_iff, Ne, isTrailing_iff]; omega
        have hleading : isLeading n = false := by rw [Bool.eq_false_iff, Ne, isLeading_iff]; omega
        have hread := readUnicode_eq_ok_iff.mpr
          (Or.inl ⟨n, h.readHex rest, htrailing, hleading, rfl⟩)
        simp [readEscape, shortEscape?_u, hread]
    | @pair high low n m hhigh hlow hn hm =>
        have htrailing : isTrailing n = false := by rw [Bool.eq_false_iff, Ne, isTrailing_iff]; omega
        have hread := readUnicode_eq_ok_iff.mpr (Or.inr ⟨n, low ++ rest, m, hhigh.readHex _, hlow.readHex rest, htrailing,
          isLeading_iff.mpr hn, isTrailing_iff.mpr hm, rfl⟩)
        simp [readEscape, shortEscape?_u, hread]

theorem Literal.readChars {cs : List Char} (h : Literal text cs) (rest : List Char) :
    readChars (text ++ rest) = .ok (cs, rest) := by
  induction h with
  | close => rw [List.singleton_append, Json.readChars, if_pos rfl]
  | plain hquote hbackslash hcontrol _ ih =>
      rw [List.cons_append, Json.readChars, if_neg hquote, if_neg hbackslash, if_neg (by omega), ih]
      rfl
  | escape hmark _ ih =>
      rw [List.cons_append, List.append_assoc, readChars_of_escape (readEscape_eq_ok_iff.mpr ⟨_, hmark, rfl⟩), ih]
      rfl

theorem exists_literal {cs : List Char} (h : readChars text = .ok (cs, rest)) : ∃ front, Literal front cs ∧ text = front ++ rest := by
  -- An escape is read off as a whole, so the induction is on a bound for the length and not on the text.
  obtain ⟨length, hlength⟩ : ∃ length, text.length ≤ length := ⟨_, le_rfl⟩
  induction length generalizing text cs with
  | zero =>
      obtain rfl := List.length_eq_zero_iff.mp (Nat.le_zero.mp hlength)
      rw [readChars] at h
      cases h
  | succ length ih =>
      cases text with
      | nil => rw [readChars] at h; cases h
      | cons c text =>
          rw [List.length_cons, Nat.succ_le_succ_iff] at hlength
          rw [readChars] at h
          split_ifs at h with hquote hbackslash hcontrol
          · cases h
            exact ⟨['"'], .close, by rw [hquote]; rfl⟩
          · split at h
            · cases h
            · next d behind hescape =>
              obtain ⟨⟨more, left⟩, hmore, heq⟩ := map_eq_ok_iff.mp h
              cases heq
              have hshorter := readEscape_length hescape
              obtain ⟨mark, hmark, rfl⟩ := readEscape_eq_ok_iff.mp hescape
              obtain ⟨front, hfront, rfl⟩ := ih hmore (by omega)
              exact ⟨'\\' :: (mark ++ front), .escape hmark hfront, by simp [hbackslash]⟩
          · obtain ⟨⟨more, left⟩, hmore, heq⟩ := map_eq_ok_iff.mp h
            cases heq
            obtain ⟨front, hfront, rfl⟩ := ih hmore hlength
            exact ⟨c :: front, .plain hquote hbackslash (by omega) hfront, rfl⟩

theorem readString_eq_ok_iff : readString text = .ok (s, rest) ↔ ∃ front, Literal front s.toList ∧ text = front ++ rest := by
  constructor
  · intro h
    obtain ⟨⟨cs, left⟩, hchars, heq⟩ := map_eq_ok_iff.mp h
    cases heq
    rw [String.toList_ofList]
    exact exists_literal hchars
  · rintro ⟨front, hfront, rfl⟩
    simp only [readString, hfront.readChars, Except.map, String.ofList_toList]

/-- A text begins with one string only. -/
theorem Literal.unique {cs cs' : List Char} (h : Literal text cs) (h' : Literal text' cs') (htext : text ++ rest = text' ++ rest') :
    text = text' ∧ cs = cs' ∧ rest = rest' := by
  have hread := h.readChars rest
  rw [htext, h'.readChars] at hread
  obtain ⟨rfl, rfl⟩ := Prod.mk.inj (Except.ok.inj hread)
  exact ⟨List.append_cancel_right htext, rfl, rfl⟩

theorem isText_rightUnique : Relator.RightUnique IsText := by
  rintro text s s' ⟨body, rfl, hbody⟩ ⟨body', heq, hbody'⟩
  obtain rfl := (List.cons_eq_cons.mp heq).2
  obtain ⟨-, hsame, -⟩ := hbody.unique hbody' (rfl : body ++ [] = body ++ [])
  exact String.toList_injective hsame

end RouteBook.Json
