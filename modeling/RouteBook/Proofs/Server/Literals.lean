import Mathlib.Data.List.DropRight
import Mathlib.Tactic
import RouteBook.Proofs.Text.Numerals
import RouteBook.Server.Address

/-! The grammar of addresses. An IPv4 address is written by its four octets without leading zeros, an IPv6 address by groups
with at most one gap, where an IPv4 address may stand for the last two groups. The readers take exactly these literals from
the front of a text and leave the rest alone. -/

namespace RouteBook.Server

open Text (IsDigitOf Denotes)

/-! ### Literals -/

/-- One to four hexadecimal digits of a group, in either case. -/
structure IsGroup (text : List Char) (group : UInt16) : Prop where
  ne_nil : text ≠ []
  length_le : text.length ≤ 4
  denotes : Denotes 16 text group.toNat

/-- What stands before a group: nothing before the first one, a colon before the others. -/
def colon (first : Bool) : List Char := if first then [] else [':']

/-- Groups joined by colons. An IPv4 address may stand for the last two; the second truth value tells whether it does. -/
inductive Groups : Bool → List Char → List UInt16 → Bool → Prop
  | nil (first : Bool) : Groups first [] [] false
  | embedded (first : Bool) (ip : Ipv4) : Groups first (colon first ++ ip.text.toList) ip.groups true
  | cons {first embedded : Bool} {text more : List Char} {group : UInt16} {groups : List UInt16}
    (h : IsGroup text group) (hmore : Groups false more groups embedded) :
    Groups first (colon first ++ (text ++ more)) (group :: groups) embedded

/-- A text that denotes an IPv6 address: all eight groups, or fewer and a gap `::` for at least one group of zeros. -/
inductive Ipv6.Literal : List Char → Ipv6 → Prop
  | whole {text : List Char} {ip : Ipv6} {embedded : Bool} (h : Groups true text ip.groups embedded) : Literal text ip
  | gap {front back : List Char} {before after : List UInt16} {ip : Ipv6} {embedded : Bool}
    (hfront : Groups true front before false) (hback : Groups true back after embedded)
    (hlength : before.length + after.length < 8)
    (hgroups : ip.groups = before ++ List.replicate (8 - before.length - after.length) 0 ++ after) :
    Literal (front ++ ':' :: ':' :: back) ip

/-- A percent sign and the decimal digits of the scope; a scope that is not written is zero. -/
inductive Zone : List Char → UInt32 → Prop
  | unwritten : Zone [] 0
  | written {digits : List Char} {scope : UInt32} (hne : digits ≠ []) (h : Denotes 10 digits scope.toNat) :
    Zone ('%' :: digits) scope

/-- A host text denotes an address, whatever the port: an IPv4 address in its dotted decimal form, or an IPv6 address with
its scope in brackets. -/
inductive Host : List Char → Address → Prop
  | v4 (ip : Ipv4) (port : UInt16) : Host ip.text.toList (.v4 ip port)
  | v6 {text zone : List Char} {ip : Ipv6} {scope : UInt32} (h : ip.Literal text) (hzone : Zone zone scope)
    (port : UInt16) : Host ('[' :: (text ++ (zone ++ [']']))) (.v6 ip scope port)

namespace Address

variable {base bound room n d : Nat} {places : Option Nat} {zeros first embedded : Bool} {c : Char} {octet : UInt8}
  {port group : UInt16} {scope : UInt32} {ip : Ipv4} {digits text part rest zone : List Char} {groups : List UInt16}

/-! ### Numbers -/

theorem digitIn?_eq_some_iff (hbase : base ≤ 16) : digitIn? base c = some d ↔ IsDigitOf base c d := by
  have htable : ∀ c : Char, c.toNat < 128 → ∀ d < 16, digitIn? 16 c = some d ↔ c.toLower = Nat.digitChar d :=
    Text.forall_ascii (by decide +kernel)
  have hsixteen : digitIn? base c = some d ↔ digitIn? 16 c = some d ∧ d < base := by
    simp only [digitIn?, Option.filter_eq_some_iff, decide_eq_true_eq]
    exact ⟨fun ⟨h, hd⟩ => ⟨⟨h, hd.trans_le hbase⟩, hd⟩, fun ⟨⟨h, _⟩, hd⟩ => ⟨h, hd⟩⟩
  rw [hsixteen]
  constructor
  · rintro ⟨h, hd⟩
    have hascii : c.toNat < 128 := by
      rw [digitIn?, Option.filter_eq_some_iff] at h
      have hvalue := h.1
      split_ifs at hvalue with h1 h2 h3 <;> simp only [Bool.and_eq_true, decide_eq_true_eq] at * <;> omega
    exact ⟨hd, (htable c hascii d (hd.trans_le hbase)).mp h⟩
  · intro h
    exact ⟨(htable c (h.ascii hbase) d (h.1.trans_le hbase)).mpr h.2, h.1⟩

theorem isSome_digitIn?_iff (hbase : base ≤ 16) : (digitIn? base c).isSome = true ↔ ∃ d, IsDigitOf base c d := by
  simp only [Option.isSome_iff_exists, digitIn?_eq_some_iff hbase]

theorem denotes_digitsValue (hbase : base ≤ 16) (h : ∀ c ∈ digits, (digitIn? base c).isSome = true) :
    Denotes base digits (digitsValue base digits) := by
  induction digits using List.reverseRecOn with
  | nil => exact .nil
  | append_singleton digits c ih =>
      obtain ⟨d, hd⟩ := Option.isSome_iff_exists.mp (h c (by simp))
      have hvalue : digitsValue base (digits ++ [c]) = digitsValue base digits * base + d := by
        simp [digitsValue, hd]
      rw [hvalue]
      exact (ih fun e he => h e (List.mem_append_left _ he)).snoc ((digitIn?_eq_some_iff hbase).mp hd)

/-- No digit comes next. -/
def Stops (base : Nat) (rest : List Char) : Prop := ∀ c ∈ rest.head?, ¬∃ d, IsDigitOf base c d

theorem stops_dropWhile (hbase : base ≤ 16) (text : List Char) :
    Stops base (text.dropWhile fun c => (digitIn? base c).isSome) := by
  intro c hc
  have hstop := List.head?_dropWhile_not (fun c => (digitIn? base c).isSome) text
  rw [Option.mem_def.mp hc] at hstop
  rw [← isSome_digitIn?_iff hbase]
  simpa using hstop

theorem takeWhile_digits (hbase : base ≤ 16) (h : ∀ c ∈ digits, ∃ d, IsDigitOf base c d) (hrest : Stops base rest) :
    (digits ++ rest).takeWhile (fun c => (digitIn? base c).isSome) = digits := by
  simp only [← isSome_digitIn?_iff hbase] at h
  rw [List.takeWhile_append_of_pos h]
  cases rest with
  | nil => exact List.append_nil digits
  | cons c rest =>
      rw [List.takeWhile_cons_of_neg (by rw [isSome_digitIn?_iff hbase]; exact hrest c rfl), List.append_nil]

theorem dropWhile_digits (hbase : base ≤ 16) (h : ∀ c ∈ digits, ∃ d, IsDigitOf base c d) (hrest : Stops base rest) :
    (digits ++ rest).dropWhile (fun c => (digitIn? base c).isSome) = rest := by
  have hsplit := List.takeWhile_append_dropWhile (p := fun c => (digitIn? base c).isSome) (l := digits ++ rest)
  rwa [takeWhile_digits hbase h hrest, List.append_cancel_left_eq] at hsplit

/-- Digits may be taken for a number below a bound. -/
structure Admits (bound : Nat) (places : Option Nat) (zeros : Bool) (digits : List Char) (n : Nat) : Prop where
  ne_nil : digits ≠ []
  length_le : ∀ most ∈ places, digits.length ≤ most
  leading : zeros = false → digits.head? = some '0' → digits.length ≤ 1
  lt : n < bound

theorem readNumber_eq_some_iff (hbase : base ≤ 16) :
    readNumber base bound places zeros text = some (n, rest) ↔
      ∃ digits, text = digits ++ rest ∧ Denotes base digits n ∧ Stops base rest ∧ Admits bound places zeros digits n := by
  have hadmits : ∀ digits, Admits bound places zeros digits (digitsValue base digits) ↔
      ¬(digits = [] || places.any (· < digits.length) || (!zeros && digits.head? = some '0' && 1 < digits.length) ||
        decide (bound ≤ digitsValue base digits)) = true := by
    intro digits
    have hplaces : (∀ most ∈ places, digits.length ≤ most) ↔ places.any (· < digits.length) = false := by
      cases places <;> simp
    have hleading : (zeros = false → digits.head? = some '0' → digits.length ≤ 1) ↔
        (!zeros && decide (digits.head? = some '0') && decide (1 < digits.length)) = false := by
      cases zeros <;> simp
    rw [Bool.not_eq_true, Bool.or_eq_false_iff, Bool.or_eq_false_iff, Bool.or_eq_false_iff, ← hplaces, ← hleading,
      decide_eq_false_iff_not, decide_eq_false_iff_not, Nat.not_le]
    exact ⟨fun h => ⟨⟨⟨h.ne_nil, h.length_le⟩, h.leading⟩, h.lt⟩, fun h => ⟨h.1.1.1, h.1.1.2, h.1.2, h.2⟩⟩
  rw [readNumber]
  constructor
  · intro h
    split_ifs at h with hcond
    obtain ⟨rfl, rfl⟩ := Prod.mk.inj (Option.some.inj h)
    have hsplit := (List.takeWhile_append_dropWhile (p := fun c => (digitIn? base c).isSome) (l := text)).symm
    have hdrop : text.drop (text.takeWhile fun c => (digitIn? base c).isSome).length =
        text.dropWhile fun c => (digitIn? base c).isSome := by
      conv_lhs => arg 2; rw [hsplit]
      exact List.drop_left
    have hdigits : ∀ c ∈ text.takeWhile fun c => (digitIn? base c).isSome, (digitIn? base c).isSome = true :=
      fun c hc => List.mem_takeWhile_imp (p := fun c => (digitIn? base c).isSome) hc
    rw [hdrop]
    exact ⟨_, hsplit, denotes_digitsValue hbase hdigits, stops_dropWhile hbase text, (hadmits _).mpr hcond⟩
  · rintro ⟨digits, rfl, hdenotes, hstops, hadmit⟩
    have hdigits : ∀ c ∈ digits, ∃ d, IsDigitOf base c d := fun c hc => hdenotes.isDigitOf_of_mem hc
    have htake := takeWhile_digits hbase hdigits hstops
    have hvalue : digitsValue base digits = n :=
      (denotes_digitsValue hbase fun c hc => (isSome_digitIn?_iff hbase).mpr (hdigits c hc)).unique hbase hdenotes
    rw [← hvalue] at hadmit ⊢
    simp only [htake]
    rw [if_neg ((hadmits digits).mp hadmit), List.drop_left]

/-! ### IPv4 addresses -/

theorem skip?_eq_some_iff : skip? c text = some rest ↔ text = c :: rest := by
  cases text with
  | nil => simp [skip?]
  | cons d text =>
      rw [skip?]
      split_ifs with h
      · simp [h]
      · simp [h]

theorem Stops.mono (h : Stops base rest) (hle : n ≤ base) : Stops n rest :=
  fun c hc ⟨d, hd⟩ => h c hc ⟨d, hd.mono hle⟩

theorem stops_cons (hc : ¬∃ d, IsDigitOf base c d) (rest : List Char) : Stops base (c :: rest) := by
  intro e he
  rwa [← Option.some.inj he]

theorem not_isDigitOf (hbase : base ≤ 16) (hc : digitIn? 16 c = none) : ¬∃ d, IsDigitOf base c d := by
  rintro ⟨d, hd⟩
  rw [(digitIn?_eq_some_iff le_rfl).mpr ⟨hd.1.trans_le hbase, hd.2⟩] at hc
  cases hc

theorem readOctet_eq_some_iff :
    readOctet text = some (octet, rest) ↔ text = Nat.toDigits 10 octet.toNat ++ rest ∧ Stops 10 rest := by
  have hlt := octet.toNat_lt
  simp only [readOctet, Option.map_eq_some_iff, Prod.exists, readNumber_eq_some_iff (by decide : 10 ≤ 16)]
  constructor
  · rintro ⟨n, left, ⟨digits, rfl, hdenotes, hstops, hadmits⟩, heq⟩
    obtain ⟨rfl, rfl⟩ := Prod.mk.inj heq
    have hn : n.toUInt8.toNat = n := by simpa using hadmits.lt
    have hpos := List.length_pos_of_ne_nil hadmits.ne_nil
    have hdigits := hdenotes.eq_toDigits hadmits.ne_nil fun h => by have := hadmits.leading rfl h; omega
    rw [hn, ← hdigits]
    exact ⟨rfl, hstops⟩
  · rintro ⟨rfl, hstops⟩
    refine ⟨octet.toNat, rest, ⟨_, rfl, Text.denotes_toDigits (by decide) (by decide) _, hstops, ?_⟩, by simp⟩
    refine ⟨Nat.toDigits_ne_nil, fun most hmost => ?_, fun _ hhead => ?_, by omega⟩
    · obtain rfl := Option.some.inj hmost
      exact (Nat.length_toDigits_le_iff (by decide) (by decide)).mpr (by omega)
    · obtain ⟨more, hmore⟩ := List.head?_eq_some_iff.mp hhead
      rw [Text.eq_zero_of_toDigits hmore]
      decide

theorem toList_ipv4Text (ip : Ipv4) : ip.text.toList =
    Nat.toDigits 10 ip.a.toNat ++ '.' :: (Nat.toDigits 10 ip.b.toNat ++ '.' :: (Nat.toDigits 10 ip.c.toNat ++
      '.' :: Nat.toDigits 10 ip.d.toNat)) := by
  simp [Ipv4.text]

theorem readIpv4_eq_some_iff : readIpv4 text = some (ip, rest) ↔ text = ip.text.toList ++ rest ∧ Stops 10 rest := by
  have hdot : ∀ more, Stops 10 ('.' :: more) := stops_cons (not_isDigitOf (by decide) (by decide))
  simp only [readIpv4, Option.bind_eq_bind, Option.bind_eq_some_iff, Prod.exists, readOctet_eq_some_iff,
    skip?_eq_some_iff, toList_ipv4Text]
  constructor
  · rintro ⟨a, _, ⟨rfl, -⟩, _, rfl, b, _, ⟨rfl, -⟩, _, rfl, c, _, ⟨rfl, -⟩, _, rfl, d, left, ⟨rfl, hstops⟩, heq⟩
    obtain ⟨rfl, rfl⟩ := Prod.mk.inj (Option.some.inj heq)
    exact ⟨by simp, hstops⟩
  · rintro ⟨rfl, hstops⟩
    simp only [List.append_assoc, List.cons_append]
    exact ⟨ip.a, _, ⟨rfl, hdot _⟩, _, rfl, ip.b, _, ⟨rfl, hdot _⟩, _, rfl, ip.c, _, ⟨rfl, hdot _⟩, _, rfl,
      ip.d, rest, ⟨rfl, hstops⟩, rfl⟩

/-- Hexadecimal digits without a dot behind them do not begin an IPv4 address. -/
theorem readIpv4_of_stops (hpart : ∀ c ∈ part, ∃ d, IsDigitOf 16 c d) (hrest : Stops 16 rest)
    (hdot : rest.head? ≠ some '.') : readIpv4 (part ++ rest) = none := by
  rw [Option.eq_none_iff_forall_ne_some]
  rintro ⟨ip, left⟩ h
  have hdigits : ∀ c ∈ Nat.toDigits 10 ip.a.toNat, ∃ d, IsDigitOf 16 c d := by
    intro c hc
    obtain ⟨d, hd⟩ := (Text.denotes_toDigits (by decide) (by decide) _).isDigitOf_of_mem hc
    exact ⟨d, hd.mono (by decide)⟩
  have hstops : ∀ more, Stops 16 ('.' :: more) := stops_cons (not_isDigitOf le_rfl (by decide))
  have htext := (readIpv4_eq_some_iff.mp h).1
  rw [toList_ipv4Text, List.append_assoc, List.cons_append] at htext
  have hbehind := dropWhile_digits le_rfl hpart hrest
  rw [htext, dropWhile_digits le_rfl hdigits (hstops _)] at hbehind
  exact hdot (by rw [← hbehind]; rfl)

/-! ### IPv6 addresses -/

theorem afterColon_eq_some_iff : afterColon first text = some rest ↔ text = colon first ++ rest := by
  cases first with
  | true => simp [afterColon, colon]
  | false => simp [afterColon, colon, skip?_eq_some_iff]

theorem readGroup_eq_some_iff :
    readNumber 16 65536 (some 4) true text = some (n, rest) ↔
      ∃ part group, text = part ++ rest ∧ IsGroup part group ∧ n = group.toNat ∧ Stops 16 rest := by
  rw [readNumber_eq_some_iff le_rfl]
  constructor
  · rintro ⟨digits, rfl, hdenotes, hstops, hadmits⟩
    have hn : n.toUInt16.toNat = n := by simpa using hadmits.lt
    refine ⟨digits, n.toUInt16, rfl, ⟨hadmits.ne_nil, hadmits.length_le 4 rfl, ?_⟩, hn.symm, hstops⟩
    rwa [hn]
  · rintro ⟨part, group, rfl, hgroup, rfl, hstops⟩
    refine ⟨part, rfl, hgroup.denotes, hstops, hgroup.ne_nil, fun most hmost => ?_, nofun, group.toNat_lt⟩
    obtain rfl := Option.some.inj hmost
    exact hgroup.length_le

/-- What was read as groups is written so. -/
theorem exists_groups (h : readGroups room first text = (groups, embedded, rest)) :
    ∃ part, text = part ++ rest ∧ Groups first part groups embedded ∧ groups.length ≤ room := by
  induction room generalizing first text groups embedded rest with
  | zero =>
      cases h
      exact ⟨[], rfl, .nil first, le_rfl⟩
  | succ room ih =>
      rw [readGroups] at h
      split at h
      · next ip left hip =>
        cases h
        split_ifs at hip with hroom
        obtain ⟨start, hcolon, hread⟩ := Option.bind_eq_some_iff.mp hip
        obtain rfl := afterColon_eq_some_iff.mp hcolon
        obtain ⟨rfl, -⟩ := readIpv4_eq_some_iff.mp hread
        exact ⟨_, (List.append_assoc _ _ _).symm, .embedded first ip, Nat.succ_le_succ hroom⟩
      · split at h
        · next n left hgroup =>
          obtain ⟨start, hcolon, hread⟩ := Option.bind_eq_some_iff.mp hgroup
          obtain rfl := afterColon_eq_some_iff.mp hcolon
          obtain ⟨part, group, rfl, hpart, rfl, -⟩ := readGroup_eq_some_iff.mp hread
          rcases hothers : readGroups room false left with ⟨others, tail, behind⟩
          rw [hothers] at h
          cases h
          obtain ⟨more, rfl, hmore, hlength⟩ := ih hothers
          have hsame : group.toNat.toUInt16 = group := by simp
          rw [hsame]
          exact ⟨colon first ++ (part ++ more), by simp, .cons hpart hmore, Nat.succ_le_succ hlength⟩
        · cases h
          exact ⟨[], rfl, .nil first, Nat.zero_le _⟩

/-- What stands behind groups: the end of a literal, or the gap. -/
def Halts (rest : List Char) : Prop := ∃ more, rest = ']' :: more ∨ rest = '%' :: more ∨ rest = ':' :: ':' :: more

theorem Halts.stops (h : Halts rest) : Stops 16 rest := by
  obtain ⟨more, rfl | rfl | rfl⟩ := h <;> exact stops_cons (not_isDigitOf le_rfl (by decide)) _

theorem Halts.head?_ne (h : Halts rest) : rest.head? ≠ some '.' := by
  obtain ⟨more, rfl | rfl | rfl⟩ := h <;> simp

/-- No further group is read there. -/
theorem Halts.afterColon (h : Halts rest) : ∀ start, afterColon first rest = some start →
    Stops 16 start ∧ start.head? ≠ some '.' := by
  intro start hstart
  rw [afterColon_eq_some_iff] at hstart
  cases first with
  | true =>
      obtain rfl : rest = start := hstart
      exact ⟨h.stops, h.head?_ne⟩
  | false =>
      obtain ⟨more, rfl | rfl | rfl⟩ := h
      · simp [colon] at hstart
      · simp [colon] at hstart
      · obtain rfl := (List.cons_eq_cons.mp hstart).2
        exact ⟨stops_cons (not_isDigitOf le_rfl (by decide)) more, by simp⟩

theorem readGroups_of_halts (h : Halts rest) : readGroups room first rest = ([], false, rest) := by
  have hnone : ∀ {α : Type} (reader : List Char → Option α),
      (∀ start, Stops 16 start → start.head? ≠ some '.' → reader start = none) →
        (Address.afterColon first rest).bind reader = none := by
    intro α reader hreader
    rw [Option.bind_eq_none_iff]
    intro start hstart
    obtain ⟨hstops, hdot⟩ := h.afterColon start hstart
    exact hreader start hstops hdot
  have hip : (Address.afterColon first rest).bind readIpv4 = none :=
    hnone readIpv4 fun start hstops hdot => readIpv4_of_stops (List.forall_mem_nil _) hstops hdot
  have hgroup : (Address.afterColon first rest).bind (readNumber 16 65536 (some 4) true) = none :=
    hnone _ fun start hstops _ => by
      rw [Option.eq_none_iff_forall_ne_some]
      rintro ⟨n, left⟩ hread
      obtain ⟨part, group, rfl, hpart, -⟩ := readGroup_eq_some_iff.mp hread
      obtain ⟨c, more, rfl⟩ := List.exists_cons_of_ne_nil hpart.ne_nil
      exact hstops c rfl (hpart.denotes.isDigitOf_of_mem List.mem_cons_self)
  cases room with
  | zero => rfl
  | succ room =>
      rw [readGroups, hip, hgroup]
      simp

/-- Behind groups comes a colon or what ends them. -/
theorem Groups.stops (h : Groups false part groups embedded) (hrest : Halts rest) :
    Stops 16 (part ++ rest) ∧ (part ++ rest).head? ≠ some '.' := by
  have hcolon : ∀ more, Stops 16 (colon false ++ more) ∧ (colon false ++ more).head? ≠ some '.' := fun more =>
    ⟨stops_cons (not_isDigitOf le_rfl (by decide)) more, by simp [colon]⟩
  cases h with
  | nil => exact ⟨hrest.stops, hrest.head?_ne⟩
  | embedded => rw [List.append_assoc]; exact hcolon _
  | cons => rw [List.append_assoc]; exact hcolon _

/-- Groups are read as far as they go. -/
theorem readGroups_append (h : Groups first part groups embedded) (hroom : groups.length ≤ room) (hrest : Halts rest) :
    readGroups room first (part ++ rest) = (groups, embedded, rest) := by
  induction h generalizing room with
  | nil first => exact readGroups_of_halts hrest
  | embedded first ip =>
      obtain ⟨room, rfl⟩ := Nat.exists_eq_add_of_le' hroom
      have hcolon : afterColon first (colon first ++ ip.text.toList ++ rest) = some (ip.text.toList ++ rest) :=
        afterColon_eq_some_iff.mpr (List.append_assoc _ _ _)
      have hip : readIpv4 (ip.text.toList ++ rest) = some (ip, rest) :=
        readIpv4_eq_some_iff.mpr ⟨rfl, hrest.stops.mono (by decide)⟩
      have hpair : room + ip.groups.length = room + 1 + 1 := rfl
      rw [hpair, readGroups, if_pos (Nat.succ_pos room), hcolon, Option.bind_some, hip]
  | @cons first embedded part more group groups hpart hmore ih =>
      obtain ⟨room, rfl⟩ := Nat.exists_eq_add_of_le' hroom
      have hdigits : ∀ c ∈ part, ∃ d, IsDigitOf 16 c d := fun c hc => hpart.denotes.isDigitOf_of_mem hc
      obtain ⟨hstops, hdot⟩ := Groups.stops hmore hrest
      have hcolon : afterColon first (colon first ++ (part ++ more) ++ rest) = some (part ++ (more ++ rest)) :=
        afterColon_eq_some_iff.mpr (by simp)
      have hip : readIpv4 (part ++ (more ++ rest)) = none := readIpv4_of_stops hdigits hstops hdot
      have hgroup : readNumber 16 65536 (some 4) true (part ++ (more ++ rest)) = some (group.toNat, more ++ rest) :=
        readGroup_eq_some_iff.mpr ⟨part, group, rfl, hpart, rfl, hstops⟩
      have hmore := ih (Nat.le_add_left groups.length room)
      rw [List.length_cons, ← Nat.add_assoc, readGroups, hcolon, Option.bind_some, hip, ite_self, Option.bind_some, hgroup]
      simp [hmore]

/-- What an IPv6 address is read from denotes it. -/
theorem exists_literal {ip : Ipv6} (h : readIpv6 text = some (ip, rest)) :
    ∃ part, text = part ++ rest ∧ ip.Literal part := by
  rcases hhead : readGroups 8 true text with ⟨head, embedded, behind⟩
  obtain ⟨front, rfl, hfront, hle⟩ := exists_groups hhead
  simp only [readIpv6, hhead] at h
  split_ifs at h with hlength hembedded
  · obtain ⟨found, hip, heq⟩ := Option.map_eq_some_iff.mp h
    obtain ⟨rfl, rfl⟩ := Prod.mk.inj heq
    rw [Ipv6.ofGroups?, dif_pos hlength] at hip
    obtain rfl := Option.some.inj hip
    exact ⟨front, rfl, .whole hfront⟩
  · obtain rfl := Bool.eq_false_of_not_eq_true hembedded
    simp only [Option.bind_eq_bind, Option.bind_eq_some_iff, skip?_eq_some_iff] at h
    obtain ⟨_, rfl, start, rfl, found, hip, heq⟩ := h
    rcases htail : readGroups (7 - head.length) true start with ⟨tail, embedded, left⟩
    rw [htail] at hip heq
    obtain ⟨rfl, rfl⟩ := Prod.mk.inj (Option.some.inj heq)
    obtain ⟨back, rfl, hback, hroom⟩ := exists_groups htail
    rw [Ipv6.ofGroups?] at hip
    split_ifs at hip with hcount
    obtain rfl := Option.some.inj hip
    exact ⟨front ++ ':' :: ':' :: back, by simp, .gap hfront hback (by omega) rfl⟩

theorem readIpv6_append {ip : Ipv6} (h : ip.Literal part) (hrest : Halts rest) :
    readIpv6 (part ++ rest) = some (ip, rest) := by
  cases h with
  | whole h =>
      have hread := readGroups_append h ip.length_eq.le hrest
      have hip : Ipv6.ofGroups? ip.groups = some ip := by rw [Ipv6.ofGroups?, dif_pos ip.length_eq]
      simp only [readIpv6, hread, ip.length_eq, hip]
      rfl
  | @gap front back before after _ embedded hfront hback hlength hgroups =>
      have hhead : readGroups 8 true (front ++ (':' :: ':' :: (back ++ rest))) =
          (before, false, ':' :: ':' :: (back ++ rest)) :=
        readGroups_append hfront (by omega) ⟨_, Or.inr (Or.inr rfl)⟩
      have htail : readGroups (7 - before.length) true (back ++ rest) = (after, embedded, rest) :=
        readGroups_append hback (by omega) hrest
      have hip : Ipv6.ofGroups? (before ++ List.replicate (8 - before.length - after.length) 0 ++ after) = some ip := by
        have hcount := ip.length_eq
        rw [hgroups] at hcount
        rw [Ipv6.ofGroups?, dif_pos hcount]
        simp only [← hgroups]
      have hsplit : front ++ ':' :: ':' :: back ++ rest = front ++ (':' :: ':' :: (back ++ rest)) := by simp
      have hcolon : ∀ text, skip? ':' (':' :: text) = some text := fun text => skip?_eq_some_iff.mpr rfl
      rw [hsplit, readIpv6, hhead]
      simp only [if_neg (by omega : before.length ≠ 8), Bool.false_eq_true, if_false, hcolon, Option.bind_eq_bind,
        Option.bind_some, htail, hip]

/-! ### Scopes and ports -/

theorem exists_zone (h : readScope text = some (scope, rest)) : ∃ zone, text = zone ++ rest ∧ Zone zone scope := by
  unfold readScope at h
  split at h
  · next more =>
    simp only [Option.map_eq_some_iff, Prod.exists, readNumber_eq_some_iff (by decide : 10 ≤ 16)] at h
    obtain ⟨n, left, ⟨digits, rfl, hdenotes, -, hadmits⟩, heq⟩ := h
    obtain ⟨rfl, rfl⟩ := Prod.mk.inj heq
    have hn : n.toUInt32.toNat = n := by simpa using hadmits.lt
    refine ⟨'%' :: digits, rfl, .written hadmits.ne_nil ?_⟩
    rwa [hn]
  · cases h
    exact ⟨[], rfl, .unwritten⟩

theorem readScope_append (h : Zone zone scope) (rest : List Char) :
    readScope (zone ++ ']' :: rest) = some (scope, ']' :: rest) := by
  cases h with
  | unwritten => rfl
  | @written digits _ hne h =>
      have hread : readNumber 10 UInt32.size none true (digits ++ ']' :: rest) = some (scope.toNat, ']' :: rest) :=
        (readNumber_eq_some_iff (by decide)).mpr ⟨digits, rfl, h, stops_cons (not_isDigitOf (by decide) (by decide)) rest,
          hne, nofun, nofun, scope.toNat_lt⟩
      rw [List.cons_append, readScope, hread]
      simp

theorem readPort_eq_some_iff :
    readPort text = some (port, rest) ↔
      ∃ digits, text = ':' :: (digits ++ rest) ∧ digits ≠ [] ∧ Denotes 10 digits port.toNat ∧ Stops 10 rest := by
  simp only [readPort, Option.bind_eq_bind, Option.bind_eq_some_iff, skip?_eq_some_iff, Prod.exists,
    readNumber_eq_some_iff (by decide : 10 ≤ 16)]
  constructor
  · rintro ⟨_, rfl, n, left, ⟨digits, rfl, hdenotes, hstops, hadmits⟩, heq⟩
    obtain ⟨rfl, rfl⟩ := Prod.mk.inj (Option.some.inj heq)
    have hn : n.toUInt16.toNat = n := by simpa using hadmits.lt
    exact ⟨digits, rfl, hadmits.ne_nil, by rwa [hn], hstops⟩
  · rintro ⟨digits, rfl, hne, hdenotes, hstops⟩
    exact ⟨_, rfl, port.toNat, rest, ⟨digits, rfl, hdenotes, hstops, hne, nofun, nofun, port.toNat_lt⟩, by simp⟩

end Address

end RouteBook.Server
