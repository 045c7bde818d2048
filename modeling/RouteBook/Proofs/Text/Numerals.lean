import Mathlib.Tactic
import RouteBook.Text.Integer

/-! Written numbers. Digits denote a number by their places, in any base up to sixteen. A decimal number up to a limit is
read exactly from its numerals; any other text is refused at the first character with which it stops being the beginning
of one. -/

namespace RouteBook.Text

variable {base limit value n m d : Nat} {c : Char} {digits before after text : List Char} {fault : IntegerFault}

/-! ### Digits -/

/-- A character stands for a digit in a base, in either case. -/
def IsDigitOf (base : Nat) (c : Char) (d : Nat) : Prop := d < base ∧ c.toLower = Nat.digitChar d

/-- Digits and the number they denote: a further digit moves the others up by one place. Zeros may lead. -/
inductive Denotes (base : Nat) : List Char → Nat → Prop
  | nil : Denotes base [] 0
  | snoc {digits : List Char} {n : Nat} {c : Char} {d : Nat} (h : Denotes base digits n) (hc : IsDigitOf base c d) :
    Denotes base (digits ++ [c]) (n * base + d)

theorem denotes_nil_iff : Denotes base [] n ↔ n = 0 := by
  constructor
  · generalize hdigits : ([] : List Char) = digits
    rintro (_ | ⟨h, hc⟩)
    · rfl
    · simp at hdigits
  · rintro rfl
    exact .nil

theorem denotes_concat_iff :
    Denotes base (digits ++ [c]) n ↔ ∃ m d, Denotes base digits m ∧ IsDigitOf base c d ∧ n = m * base + d := by
  constructor
  · generalize hall : digits ++ [c] = all
    rintro (_ | ⟨h, hc⟩)
    · simp at hall
    · obtain ⟨rfl, hlast⟩ := List.append_inj' hall rfl
      obtain rfl := List.singleton_inj.mp hlast
      exact ⟨_, _, h, hc, rfl⟩
  · rintro ⟨m, d, h, hc, rfl⟩
    exact .snoc h hc

theorem IsDigitOf.unique {e : Nat} (hbase : base ≤ 16) (h : IsDigitOf base c d) (h' : IsDigitOf base c e) : d = e := by
  have hdigits : ∀ d < 16, ∀ e < 16, Nat.digitChar d = Nat.digitChar e → d = e := by decide
  exact hdigits d (h.1.trans_le hbase) e (h'.1.trans_le hbase) (h.2.symm.trans h'.2)

theorem IsDigitOf.mono (h : IsDigitOf base c d) (hle : base ≤ m) : IsDigitOf m c d := ⟨h.1.trans_le hle, h.2⟩

theorem Denotes.unique (hbase : base ≤ 16) (h : Denotes base digits n) (h' : Denotes base digits m) : n = m := by
  induction h generalizing m with
  | nil => exact (denotes_nil_iff.mp h').symm
  | snoc h hc ih =>
      obtain ⟨k, e, hdigits, he, rfl⟩ := denotes_concat_iff.mp h'
      rw [ih hdigits, hc.unique hbase he]

/-- What stands before further digits denotes a number too, and none that is larger. -/
theorem Denotes.of_append (h : Denotes base (before ++ after) n) : ∃ m, Denotes base before m ∧ m ≤ n := by
  induction after using List.reverseRecOn generalizing n with
  | nil => exact ⟨n, by rwa [List.append_nil] at h, le_rfl⟩
  | append_singleton after c ih =>
      rw [← List.append_assoc, denotes_concat_iff] at h
      obtain ⟨m, d, hmore, hc, rfl⟩ := h
      obtain ⟨k, hbefore, hle⟩ := ih hmore
      have hbase : 1 ≤ base := by have := hc.1; omega
      exact ⟨k, hbefore, hle.trans ((Nat.le_mul_of_pos_right m hbase).trans (Nat.le_add_right _ _))⟩

theorem forall_ascii {p : Char → Prop} (h : ∀ n < 128, p (Char.ofNat n)) (c : Char) (hc : c.toNat < 128) : p c := by
  have hp := h c.toNat hc
  rwa [Char.ofNat_toNat] at hp

theorem IsDigitOf.ascii (hbase : base ≤ 16) (h : IsDigitOf base c d) : c.toNat < 128 := by
  have hsmall : ∀ d < 16, (Nat.digitChar d).toNat < 128 := by decide
  have hchar := hsmall d (h.1.trans_le hbase)
  by_contra hc
  have hupper : ¬(c.val ≥ 'A'.val ∧ c.val ≤ 'Z'.val) := by
    rintro ⟨-, hle⟩
    have hle : c.toNat ≤ 90 := UInt32.le_iff_toNat_le.mp hle
    omega
  have hsame : c.toLower = c := dif_neg hupper
  rw [← h.2, hsame] at hchar
  exact hc hchar

theorem Denotes.isDigitOf_of_mem (h : Denotes base digits n) (hc : c ∈ digits) : ∃ d, IsDigitOf base c d := by
  induction h with
  | nil => cases hc
  | snoc h hlast ih =>
      rcases List.mem_append.mp hc with hc | hc
      · exact ih hc
      · obtain rfl := List.mem_singleton.mp hc
        exact ⟨_, hlast⟩

/-! ### Digits of a number -/

theorem isDigitOf_digitChar (hbase : base ≤ 16) (hd : d < base) : IsDigitOf base (Nat.digitChar d) d := by
  have hlower : ∀ d < 16, (Nat.digitChar d).toLower = Nat.digitChar d := by decide
  exact ⟨hd, hlower d (hd.trans_le hbase)⟩

theorem denotes_toDigits (hone : 1 < base) (hbase : base ≤ 16) (n : Nat) : Denotes base (Nat.toDigits base n) n := by
  induction n using Nat.strongRecOn with
  | ind n ih =>
      by_cases hn : n < base
      · have hsnoc := Denotes.snoc .nil (isDigitOf_digitChar hbase hn)
        rwa [List.nil_append, Nat.zero_mul, Nat.zero_add, ← Nat.toDigits_of_lt_base hn] at hsnoc
      · have hfront := ih (n / base) (Nat.div_lt_self (by omega) hone)
        have hsnoc := hfront.snoc (isDigitOf_digitChar hbase (Nat.mod_lt n (by omega)))
        rwa [← Nat.toDigits_of_base_le hone (Nat.le_of_not_lt hn), Nat.div_add_mod'] at hsnoc

/-- Only the number zero is written with a zero in front. -/
theorem eq_zero_of_toDigits {more : List Char} (h : Nat.toDigits 10 n = '0' :: more) : n = 0 := by
  induction n using Nat.strongRecOn generalizing more with
  | ind n ih =>
      by_cases hn : n < 10
      · have hdigit : ∀ d < 10, Nat.digitChar d = '0' → d = 0 := by decide
        rw [Nat.toDigits_of_lt_base hn] at h
        exact hdigit n hn (List.cons_eq_cons.mp h).1
      · obtain ⟨d, front, hfront⟩ := List.exists_cons_of_ne_nil (Nat.toDigits_ne_nil : Nat.toDigits 10 (n / 10) ≠ [])
        rw [Nat.toDigits_of_base_le (by decide) (by omega), hfront, List.cons_append] at h
        have hzero : n / 10 = 0 := ih (n / 10) (by omega) ((List.cons_eq_cons.mp h).1 ▸ hfront)
        omega

theorem IsDigitOf.eq_digitChar (h : IsDigitOf 10 c d) : c = Nat.digitChar d := by
  have htable : ∀ c : Char, c.toNat < 128 → ∀ d < 10, c.toLower = Nat.digitChar d → c = Nat.digitChar d :=
    forall_ascii (by decide +kernel)
  exact htable c (h.ascii (by decide)) d h.1 h.2

/-- Decimal digits without a leading zero are those of the number. -/
theorem Denotes.eq_toDigits (h : Denotes 10 digits n) (hne : digits ≠ [])
    (hzero : digits.head? = some '0' → digits.length = 1) : digits = Nat.toDigits 10 n := by
  induction h with
  | nil => exact absurd rfl hne
  | @snoc front m c d hfront hc ih =>
      have hd := hc.1
      by_cases hnil : front = []
      · subst hnil
        obtain rfl := denotes_nil_iff.mp hfront
        rw [List.nil_append, Nat.zero_mul, Nat.zero_add, Nat.toDigits_of_lt_base hd, hc.eq_digitChar]
      · have hhead : front.head? ≠ some '0' := by
          intro hhead
          have hlength := hzero (by rw [List.head?_append_of_ne_nil _ hnil, hhead])
          have hpos := List.length_pos_of_ne_nil hnil
          rw [List.length_append, List.length_singleton] at hlength
          omega
        have hdigits := ih hnil fun h => absurd h hhead
        have hm : m ≠ 0 := by
          rintro rfl
          exact hhead (by rw [hdigits]; rfl)
        have hdiv : (m * 10 + d) / 10 = m := by omega
        have hmod : (m * 10 + d) % 10 = d := by omega
        rw [Nat.toDigits_of_base_le (by decide) (by omega), hdiv, hmod, ← hdigits, ← hc.eq_digitChar]

/-! ### Decimal numbers -/

theorem digit?_eq_some_iff : digit? c = some d ↔ IsDigitOf 10 c d := by
  have htable : ∀ c : Char, c.toNat < 128 → ∀ d < 10, digit? c = some d ↔ c.toLower = Nat.digitChar d :=
    forall_ascii (by decide +kernel)
  constructor
  · intro h
    have hbounds : 48 ≤ c.toNat ∧ c.toNat ≤ 57 ∧ d = c.toNat - 48 := by
      rw [digit?] at h
      split_ifs at h with hc
      obtain rfl := Option.some.inj h
      have hc : 48 ≤ c.toNat ∧ c.toNat ≤ 57 := by simpa [Char.isDigit, UInt32.le_iff_toNat_le] using hc
      exact ⟨hc.1, hc.2, rfl⟩
    have hlt : d < 10 := by omega
    exact ⟨hlt, (htable c (by omega) d hlt).mp h⟩
  · intro h
    exact (htable c (h.ascii (by decide)) d h.1).mpr h.2

theorem digit?_eq_none_iff : digit? c = none ↔ c.isDigit = false := by
  rw [digit?]
  split_ifs with hc <;> simp [hc]

/-- A text without a plus sign in front. -/
def unsigned : List Char → List Char
  | '+' :: digits => digits
  | digits => digits

/-- A number as it may be written: digits, at least one, and perhaps a plus sign before them. -/
def Numeral (text : List Char) (n : Nat) : Prop := unsigned text ≠ [] ∧ Denotes 10 (unsigned text) n

/-- Behind the digits read before it a character is no digit, or with it the number passes the limit. -/
inductive Offends (limit : Nat) (before : List Char) (c : Char) : IntegerFault → Prop
  | stray (hc : c.isDigit = false) : Offends limit before c .invalidDigit
  | excess {n : Nat} (h : Denotes 10 (before ++ [c]) n) (hn : limit < n) : Offends limit before c .tooLarge

/-- What is wrong with a text that writes no number up to a limit: it is empty, it is a sign alone, or the first
character that offends decides. -/
inductive Faulty (limit : Nat) (text : List Char) : IntegerFault → Prop
  | empty (h : text = []) : Faulty limit text .empty
  | sign (h : text = ['+'] ∨ text = ['-']) : Faulty limit text .invalidDigit
  | first {before after : List Char} {c : Char} {n : Nat} {fault : IntegerFault} (h : unsigned text = before ++ c :: after)
    (hbefore : Denotes 10 before n) (hn : n ≤ limit) (hc : Offends limit before c fault) : Faulty limit text fault

/-- Reading goes on behind digits whose number is within the limit. -/
theorem readDigits_eq_ok_iff {excess : IntegerFault} (hbefore : Denotes 10 before value) (hvalue : value ≤ limit) :
    readDigits limit excess value text = .ok n ↔ Denotes 10 (before ++ text) n ∧ n ≤ limit := by
  induction text generalizing before value with
  | nil =>
      rw [readDigits, List.append_nil, Except.ok.injEq]
      constructor
      · rintro rfl
        exact ⟨hbefore, hvalue⟩
      · rintro ⟨h, -⟩
        exact hbefore.unique (by decide) h
  | cons c text ih =>
      have hsplit : before ++ c :: text = before ++ [c] ++ text := by simp
      rw [readDigits, hsplit]
      cases hc : digit? c with
      | none =>
          refine ⟨nofun, fun ⟨h, _⟩ => ?_⟩
          obtain ⟨m, hfront, -⟩ := h.of_append
          obtain ⟨-, d, -, hd, -⟩ := denotes_concat_iff.mp hfront
          rw [digit?_eq_some_iff.mpr hd] at hc
          cases hc
      | some d =>
          have hnext := hbefore.snoc (digit?_eq_some_iff.mp hc)
          dsimp only
          split_ifs with hlimit
          · refine ⟨nofun, fun ⟨h, hn⟩ => ?_⟩
            obtain ⟨m, hfront, hle⟩ := h.of_append
            have hm := hnext.unique (by decide) hfront
            omega
          · exact ih hnext (Nat.le_of_not_lt hlimit)

theorem readDigits_eq_error_iff (hbefore : Denotes 10 before value) (hvalue : value ≤ limit) :
    readDigits limit .tooLarge value text = .error fault ↔
      ∃ more c after n, text = more ++ c :: after ∧ Denotes 10 (before ++ more) n ∧ n ≤ limit ∧
        Offends limit (before ++ more) c fault := by
  induction text generalizing before value with
  | nil =>
      rw [readDigits]
      refine ⟨nofun, ?_⟩
      rintro ⟨more, c, after, -, h, -⟩
      simp at h
  | cons c text ih =>
      rw [readDigits]
      constructor
      · intro h
        cases hc : digit? c with
        | none =>
            rw [hc] at h
            cases h
            exact ⟨[], c, text, value, rfl, by simpa using hbefore, hvalue, .stray (digit?_eq_none_iff.mp hc)⟩
        | some d =>
            have hnext := hbefore.snoc (digit?_eq_some_iff.mp hc)
            simp only [hc] at h
            split_ifs at h with hlimit
            · cases h
              exact ⟨[], c, text, value, rfl, by simpa using hbefore, hvalue, .excess (by simpa using hnext) hlimit⟩
            · obtain ⟨more, e, after, n, rfl, hmore, hn, he⟩ := (ih hnext (Nat.le_of_not_lt hlimit)).mp h
              rw [List.append_assoc] at hmore he
              exact ⟨c :: more, e, after, n, rfl, hmore, hn, he⟩
      · rintro ⟨more, e, after, n, htext, hmore, hn, he⟩
        cases more with
        | nil =>
            obtain ⟨rfl, rfl⟩ := List.cons_eq_cons.mp htext
            rw [List.append_nil] at hmore he
            cases he with
            | stray hc => rw [digit?_eq_none_iff.mpr hc]
            | excess h hm =>
                obtain ⟨k, d, hk, hd, rfl⟩ := denotes_concat_iff.mp h
                obtain rfl := hbefore.unique (by decide) hk
                simp only [digit?_eq_some_iff.mpr hd, if_pos hm]
        | cons first more =>
            obtain ⟨rfl, rfl⟩ := List.cons_eq_cons.mp htext
            have hsplit : before ++ c :: more = before ++ [c] ++ more := by simp
            rw [hsplit] at hmore he
            obtain ⟨m, hfront, hle⟩ := hmore.of_append
            obtain ⟨k, d, hk, hd, rfl⟩ := denotes_concat_iff.mp hfront
            obtain rfl := hbefore.unique (by decide) hk
            simp only [digit?_eq_some_iff.mpr hd]
            rw [if_neg (Nat.not_lt.mpr (hle.trans hn)), ih hfront (hle.trans hn)]
            exact ⟨more, e, after, n, rfl, hmore, hn, he⟩

/-- A number is read behind the sign that may stand before it. -/
theorem readNat_of_unsigned (h : unsigned text ≠ []) : readNat limit text = readDigits limit .tooLarge 0 (unsigned text) := by
  rw [readNat.eq_def]
  split
  · exact absurd rfl h
  · exact absurd rfl h
  · rfl
  · next hnil hlone hplus =>
    have hself : unsigned text = text := by
      unfold unsigned
      split
      · exact absurd rfl (hplus _)
      · rfl
    rw [hself]

theorem unsigned_eq_nil_iff : unsigned text = [] ↔ text = [] ∨ text = ['+'] := by
  unfold unsigned
  split <;> simp_all

theorem readNat_eq_ok_iff : readNat limit text = .ok n ↔ Numeral text n ∧ n ≤ limit := by
  by_cases h : unsigned text = []
  · have hnumeral : ¬Numeral text n := fun hnumeral => hnumeral.1 h
    rcases unsigned_eq_nil_iff.mp h with rfl | rfl <;> simp [readNat, hnumeral]
  · rw [readNat_of_unsigned h, readDigits_eq_ok_iff .nil (Nat.zero_le _), List.nil_append, Numeral]
    exact ⟨fun ⟨hdenotes, hn⟩ => ⟨⟨h, hdenotes⟩, hn⟩, fun ⟨⟨_, hdenotes⟩, hn⟩ => ⟨hdenotes, hn⟩⟩

theorem readNat_eq_error_iff : readNat limit text = .error fault ↔ Faulty limit text fault := by
  by_cases h : unsigned text = []
  · have hfirst : ∀ before c after, unsigned text ≠ before ++ c :: after := by simp [h]
    rcases unsigned_eq_nil_iff.mp h with rfl | rfl
    · constructor
      · rintro ⟨⟩
        exact .empty rfl
      · rintro (_ | h | h)
        · rfl
        · simp at h
        · exact absurd h (hfirst _ _ _)
    · constructor
      · rintro ⟨⟩
        exact .sign (Or.inl rfl)
      · rintro (h | _ | h)
        · simp at h
        · rfl
        · exact absurd h (hfirst _ _ _)
  · rw [readNat_of_unsigned h, readDigits_eq_error_iff .nil (Nat.zero_le _)]
    simp only [List.nil_append]
    constructor
    · rintro ⟨before, c, after, n, htext, hbefore, hn, hc⟩
      exact .first htext hbefore hn hc
    · rintro (rfl | (rfl | rfl) | ⟨htext, hbefore, hn, hc⟩)
      · exact absurd rfl h
      · exact absurd rfl h
      · exact ⟨[], '-', [], 0, rfl, .nil, Nat.zero_le _, .stray (by decide)⟩
      · exact ⟨_, _, _, _, htext, hbefore, hn, hc⟩

end RouteBook.Text
