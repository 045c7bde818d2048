import Mathlib.Data.Prod.Lex
import Mathlib.Tactic
import RouteBook.Service.RequestId

/-! Ids that the service makes. Whatever the clock and the random numbers are, an id is written as a UUID of
version 7. The clock of ids moves on with every id, and an id shows the whole of it, so that no id is made twice
before the time outgrows the bits it has. -/

namespace RouteBook.Service

namespace IdClock

/-- The times that an id can show. -/
def timeRange : Nat := Nat.pow 2 48

/-- The state of a clock as a moment: later times come later, and at one time higher counters. -/
def moment (clock : IdClock) : Nat ×ₗ Nat := toLex (clock.millis, clock.counter)

variable {clock later : IdClock}

theorem moment_lt_iff : clock.moment < later.moment ↔
    clock.millis < later.millis ∨ clock.millis = later.millis ∧ clock.counter < later.counter :=
  Prod.Lex.toLex_lt_toLex

theorem millis_le_of_moment_le (h : clock.moment ≤ later.moment) : clock.millis ≤ later.millis := by
  rcases Prod.Lex.toLex_le_toLex.mp h with h | h
  · exact h.le
  · exact h.1.le

/-- A clock never stands still. -/
theorem moment_lt_next (clock : IdClock) (draw : Draw) : clock.moment < (clock.next draw).moment := by
  rw [moment_lt_iff]
  unfold next
  split_ifs with htime hcounter
  · exact Or.inl htime
  · exact Or.inr ⟨rfl, Nat.lt_succ_self _⟩
  · exact Or.inl (Nat.lt_succ_self _)

theorem counter_next_lt (clock : IdClock) (draw : Draw) : (clock.next draw).counter < counterRange := by
  have hseed : draw.seed % seedRange < counterRange :=
    (Nat.mod_lt _ (by decide)).trans (by decide)
  unfold next
  split_ifs with htime hcounter
  · exact hseed
  · exact hcounter
  · exact hseed

theorem bits_lt (clock : IdClock) (tail : Nat) : clock.bits tail < 16 ^ 32 := by
  have htime := Nat.mod_lt clock.millis (y := Nat.pow 2 48) (by decide)
  have hhigh := Nat.mod_lt (clock.counter / Nat.pow 2 30) (y := Nat.pow 2 12) (by decide)
  have hlow := Nat.mod_lt clock.counter (y := Nat.pow 2 30) (by decide)
  have htail := Nat.mod_lt tail (y := Nat.pow 2 32) (by decide)
  simp only [bits, Nat.pow_eq, Nat.reducePow] at htime hhigh hlow htail ⊢
  omega

/-- An id shows the whole clock. -/
theorem eq_of_bits_eq {tail tail' : Nat} (hclock : clock.millis < timeRange) (hlater : later.millis < timeRange)
    (hcounter : clock.counter < counterRange) (hcounter' : later.counter < counterRange)
    (h : clock.bits tail = later.bits tail') : clock.millis = later.millis ∧ clock.counter = later.counter := by
  simp only [bits, timeRange, counterRange, Nat.pow_eq, Nat.reducePow] at *
  omega

theorem version_bits (clock : IdClock) (tail : Nat) : clock.bits tail / 16 ^ 19 % 16 = 7 := by
  simp only [bits, Nat.pow_eq, Nat.reducePow]
  omega

theorem variant_bits (clock : IdClock) (tail : Nat) :
    8 ≤ clock.bits tail / 16 ^ 15 % 16 ∧ clock.bits tail / 16 ^ 15 % 16 ≤ 11 := by
  simp only [bits, Nat.pow_eq, Nat.reducePow]
  omega

end IdClock

/-! ### Written ids -/

theorem digitChar_injective {a b : Nat} (ha : a < 16) (hb : b < 16) (h : Nat.digitChar a = Nat.digitChar b) : a = b := by
  have hall : ∀ a < 16, ∀ b < 16, Nat.digitChar a = Nat.digitChar b → a = b := by decide
  exact hall a ha b hb h

theorem isLowerHex_digitChar {digit : Nat} (h : digit < 16) : isLowerHex (Nat.digitChar digit) = true := by
  have hall : ∀ digit < 16, isLowerHex (Nat.digitChar digit) = true := by decide
  exact hall digit h

theorem eq_of_digits_eq {count a b : Nat} (ha : a < 16 ^ count) (hb : b < 16 ^ count)
    (h : ∀ place < count, a / 16 ^ place % 16 = b / 16 ^ place % 16) : a = b := by
  induction count generalizing a b with
  | zero =>
      rw [pow_zero, Nat.lt_one_iff] at ha hb
      rw [ha, hb]
  | succ count ih =>
      have hlow : a % 16 = b % 16 := by simpa using h 0 (Nat.succ_pos count)
      have hhigh : a / 16 = b / 16 := by
        rw [pow_succ] at ha hb
        refine ih (Nat.div_lt_of_lt_mul (by omega)) (Nat.div_lt_of_lt_mul (by omega)) fun place hplace => ?_
        have hnext := h (place + 1) (by omega)
        rwa [pow_succ', ← Nat.div_div_eq_div_mul, ← Nat.div_div_eq_div_mul] at hnext
      omega

theorem length_hexGroup (value place count : Nat) : (hexGroup value place count).length = count := by
  simp [hexGroup]

/-- Two values have the same group where their digits agree on its places. -/
theorem hexGroup_eq_iff {value other first count : Nat} :
    hexGroup value first count = hexGroup other first count ↔
      ∀ place, first ≤ place → place < first + count → value / 16 ^ place % 16 = other / 16 ^ place % 16 := by
  simp only [hexGroup, List.map_inj_left, List.mem_reverse, List.mem_range, Nat.pow_eq]
  constructor
  · intro h place hfirst hlast
    obtain ⟨i, rfl⟩ := Nat.exists_eq_add_of_le hfirst
    exact digitChar_injective (Nat.mod_lt _ (by decide)) (Nat.mod_lt _ (by decide)) (h i (by omega))
  · intro h i hi
    rw [h (first + i) (by omega) (by omega)]

theorem toList_uuidText (value : Nat) :
    (uuidText value).toList = hexGroup value 24 8 ++ '-' :: (hexGroup value 20 4 ++ '-' :: (hexGroup value 16 4 ++
      '-' :: (hexGroup value 12 4 ++ '-' :: hexGroup value 0 12))) := by
  simp [uuidText, List.intercalate]

theorem uuidText_injective {value other : Nat} (hvalue : value < 16 ^ 32) (hother : other < 16 ^ 32)
    (h : uuidText value = uuidText other) : value = other := by
  have hchars := congrArg String.toList h
  rw [toList_uuidText, toList_uuidText] at hchars
  -- The groups have fixed lengths, so they agree one by one.
  have split : ∀ {first count : Nat} {rest rest' : List Char},
      hexGroup value first count ++ '-' :: rest = hexGroup other first count ++ '-' :: rest' →
      (∀ place, first ≤ place → place < first + count → value / 16 ^ place % 16 = other / 16 ^ place % 16) ∧
        rest = rest' := by
    intro first count rest rest' heq
    obtain ⟨hgroup, hrest⟩ := List.append_inj heq (by rw [length_hexGroup, length_hexGroup])
    exact ⟨hexGroup_eq_iff.mp hgroup, List.tail_eq_of_cons_eq hrest⟩
  obtain ⟨h24, hchars⟩ := split hchars
  obtain ⟨h20, hchars⟩ := split hchars
  obtain ⟨h16, hchars⟩ := split hchars
  obtain ⟨h12, hchars⟩ := split hchars
  have h0 := hexGroup_eq_iff.mp hchars
  refine eq_of_digits_eq hvalue hother fun place hplace => ?_
  rcases lt_or_ge place 12 with hlt | hge
  · exact h0 place (Nat.zero_le place) hlt
  rcases lt_or_ge place 16 with hlt | hge
  · exact h12 place hge hlt
  rcases lt_or_ge place 20 with hlt | hge
  · exact h16 place hge hlt
  rcases lt_or_ge place 24 with hlt | hge
  · exact h20 place hge hlt
  · exact h24 place hge hplace

theorem isUuidV7_uuidText {value : Nat} (hversion : value / 16 ^ 19 % 16 = 7)
    (hvariant : 8 ≤ value / 16 ^ 15 % 16 ∧ value / 16 ^ 15 % 16 ≤ 11) : isUuidV7 (uuidText value) = true := by
  have hhex : ∀ n, isLowerHex (Nat.digitChar (n % 16)) = true :=
    fun n => isLowerHex_digitChar (Nat.mod_lt n (by decide))
  have hmark : ((value / 16 ^ 15 % 16 = 8 ∨ value / 16 ^ 15 % 16 = 9) ∨ value / 16 ^ 15 % 16 = 10) ∨
      value / 16 ^ 15 % 16 = 11 := by omega
  simpa [isUuidV7, toList_uuidText, hexGroup, List.range_succ, hhex] using And.intro hversion hmark

theorem isUuidV7_newId (clock : IdClock) (draw : Draw) : isUuidV7 (newId clock draw).2 = true :=
  isUuidV7_uuidText (IdClock.version_bits _ _) (IdClock.variant_bits _ _)

/-- Ids made at different moments differ, as long as an id can show the time. -/
theorem uuidText_bits_ne {clock later : IdClock} {tail tail' : Nat} (h : clock.moment < later.moment)
    (hcounter : clock.counter < IdClock.counterRange) (hcounter' : later.counter < IdClock.counterRange)
    (hrange : later.millis < IdClock.timeRange) : uuidText (clock.bits tail) ≠ uuidText (later.bits tail') := by
  intro heq
  have hbits := uuidText_injective (IdClock.bits_lt _ _) (IdClock.bits_lt _ _) heq
  obtain ⟨hmillis, hcount⟩ := IdClock.eq_of_bits_eq
    ((IdClock.millis_le_of_moment_le h.le).trans_lt hrange) hrange hcounter hcounter' hbits
  rcases IdClock.moment_lt_iff.mp h with h | ⟨-, h⟩
  · exact absurd hmillis h.ne
  · exact absurd hcount h.ne

end RouteBook.Service
