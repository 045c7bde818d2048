import RouteBook.Json.Print
import RouteBook.Proofs.Markdown.Lines

/-! The lines of the pretty form. Line breaks stand between the items of a value only, since strings escape theirs,
and every break is followed by spaces and by the first character of an item or by a closing bracket. So every line of
a printed value is spaces and something that begins with neither a blank nor a backtick. -/

namespace RouteBook.Json

/-- A character that can come first on a line, after its indentation: neither a blank nor a backtick. -/
def IsFirst (c : Char) : Prop := c ∉ [' ', '\t', '\n', '\r', '\x60']

instance (c : Char) : Decidable (IsFirst c) := inferInstanceAs (Decidable (c ∉ [' ', '\t', '\n', '\r', '\x60']))

/-- A text of which every line after the first is spaces, a first character and something behind. -/
structure Laid (text : List Char) : Prop where
  noReturn : '\r' ∉ text
  indented : ∀ before after, text = before ++ '\n' :: after →
    ∃ n c more, after = List.replicate n ' ' ++ c :: more ∧ IsFirst c

/-- A text that starts with a first character. -/
def Starts (text : List Char) : Prop := ∃ c more, text = c :: more ∧ IsFirst c

theorem Laid.append {front back : List Char} (hfront : Laid front) (hback : Laid back) : Laid (front ++ back) := by
  refine ⟨by simp [hfront.noReturn, hback.noReturn], fun before after hsplit => ?_⟩
  rcases List.append_eq_append_iff.mp hsplit with ⟨middle, -, hmiddle⟩ | ⟨middle, hmiddle, hafter⟩
  · exact hback.indented middle after hmiddle
  · cases middle with
    | nil => exact hback.indented [] after hafter.symm
    | cons d middle =>
        obtain ⟨rfl, rfl⟩ := List.cons_eq_cons.mp hafter
        obtain ⟨n, c, more, rfl, hc⟩ := hfront.indented before middle hmiddle
        exact ⟨n, c, more ++ back, by simp, hc⟩

theorem Laid.of_unbroken {text : List Char} (h : Markdown.Unbroken text) : Laid text :=
  ⟨h.noReturn, fun before after hsplit => absurd (by simp [hsplit]) h.noFeed⟩

/-- A line break with indentation, in front of something that starts a line. -/
theorem Laid.newline {text : List Char} (h : Laid text) (hstart : Starts text) (level : Nat) :
    Laid (Value.newline level ++ text) := by
  refine ⟨by simp [Value.newline, List.mem_replicate, h.noReturn], fun before after hsplit => ?_⟩
  obtain ⟨c, more, rfl, hc⟩ := hstart
  cases before with
  | nil => exact ⟨2 * level, c, more, (List.cons_eq_cons.mp hsplit).2.symm, hc⟩
  | cons d before =>
      have hrest : List.replicate (2 * level) ' ' ++ c :: more = before ++ '\n' :: after :=
        (List.cons_eq_cons.mp hsplit).2
      rcases List.append_eq_append_iff.mp hrest with ⟨middle, -, hmiddle⟩ | ⟨middle, hmiddle, hafter⟩
      · exact h.indented middle after hmiddle
      · cases middle with
        | nil => exact h.indented [] after hafter.symm
        | cons e middle =>
            obtain ⟨rfl, -⟩ := List.cons_eq_cons.mp hafter
            have hmem : '\n' ∈ List.replicate (2 * level) ' ' := by simp [hmiddle]
            exact absurd (List.eq_of_mem_replicate hmem) (by decide)

/-! ### Strings and numbers -/

theorem escape_unbroken (c : Char) : Markdown.Unbroken (escape c) := by
  have hdigit : ∀ n < 16, Nat.digitChar n ≠ '\n' ∧ Nat.digitChar n ≠ '\r' := by decide
  unfold escape
  split_ifs with h₁ h₂ h₃ h₄ hfeed h₅ hreturn hcontrol
  · decide
  · decide
  · decide
  · decide
  · decide
  · decide
  · decide
  · have hhigh := hdigit (c.toNat / 16) (by omega)
    have hlow := hdigit (c.toNat % 16) (Nat.mod_lt _ (by decide))
    exact ⟨by simp [hhigh.1.symm, hlow.1.symm], by simp [hhigh.2.symm, hlow.2.symm]⟩
  · exact ⟨by simpa using Ne.symm hfeed, by simpa using Ne.symm hreturn⟩

theorem quote_unbroken (s : String) : Markdown.Unbroken (quote s) := by
  have hbody : Markdown.Unbroken (s.toList.flatMap escape) := by
    constructor
    · intro hmem
      obtain ⟨c, -, hc⟩ := List.mem_flatMap.mp hmem
      exact (escape_unbroken c).noFeed hc
    · intro hmem
      obtain ⟨c, -, hc⟩ := List.mem_flatMap.mp hmem
      exact (escape_unbroken c).noReturn hc
  exact ⟨by simp [quote, hbody.noFeed], by simp [quote, hbody.noReturn]⟩

/-- Characters that numbers are written with. -/
def IsNumeral (c : Char) : Prop := c.isDigit = true ∨ c ∈ ['-', '+', '.', 'e']

instance (c : Char) : Decidable (IsNumeral c) :=
  inferInstanceAs (Decidable (c.isDigit = true ∨ c ∈ ['-', '+', '.', 'e']))

theorem IsNumeral.isFirst {c : Char} (h : IsNumeral c) : IsFirst c := by
  intro hblank
  rcases h with hdigit | hmark
  · fin_cases hblank <;> exact absurd hdigit (by decide)
  · fin_cases hblank <;> exact absurd hmark (by decide)

/-- A text that is written with the characters of numbers, and is not empty. -/
structure Numeric (text : List Char) : Prop where
  ne_nil : text ≠ []
  numerals : ∀ c ∈ text, IsNumeral c

theorem numeric_toDigits (n : Nat) : Numeric (Nat.toDigits 10 n) :=
  ⟨Nat.toDigits_ne_nil, fun _ hc => Or.inl (Nat.isDigit_of_mem_toDigits (by decide) (by decide) hc)⟩

theorem numeric_cons {c : Char} (hc : IsNumeral c) {text : List Char} (h : ∀ d ∈ text, IsNumeral d) :
    Numeric (c :: text) := ⟨by simp, by simpa [hc] using h⟩

theorem isNumeral_zeros {n : Nat} : ∀ c ∈ Decimal.zeros n, IsNumeral c := by
  intro c hc
  rw [List.eq_of_mem_replicate hc]
  exact Or.inl (by decide)

theorem numeric_placePoint {digits : List Char} (h : ∀ c ∈ digits, IsNumeral c) (point : Int) :
    Numeric (Decimal.placePoint digits point) := by
  have hdot : IsNumeral '.' := by decide
  have hzero : IsNumeral '0' := by decide
  unfold Decimal.placePoint
  split_ifs
  · refine numeric_cons hzero fun c hc => ?_
    simp only [List.mem_cons, List.mem_append] at hc
    rcases hc with rfl | hc | hc
    · exact hdot
    · exact isNumeral_zeros c hc
    · exact h c hc
  · refine ⟨by simp, fun c hc => ?_⟩
    simp only [List.mem_append, List.mem_cons] at hc
    rcases hc with hc | rfl | hc
    · exact h c (List.mem_of_mem_take hc)
    · exact hdot
    · exact h c (List.mem_of_mem_drop hc)
  · refine ⟨by simp, fun c hc => ?_⟩
    simp only [List.mem_append, List.mem_cons, List.not_mem_nil, or_false] at hc
    rcases hc with (hc | hc) | rfl | rfl
    · exact h c hc
    · exact isNumeral_zeros c hc
    · exact hdot
    · exact hzero

theorem numeric_withExponent (plus : Bool) {digits : List Char} (h : ∀ c ∈ digits, IsNumeral c) (point : Int) :
    Numeric (Decimal.withExponent plus digits point) := by
  have hsign : ∀ c ∈ (if point - 1 < 0 then ['-'] else if plus then ['+'] else []), IsNumeral c := by
    intro c hc
    split_ifs at hc
    · exact Or.inr (by simp_all)
    · exact Or.inr (by simp_all)
    · cases hc
  refine ⟨by simp [Decimal.withExponent], fun c hc => ?_⟩
  simp only [Decimal.withExponent, List.mem_append, List.mem_cons] at hc
  rcases hc with (hc | rfl | hc) | hc
  · split at hc
    · next d e rest =>
      simp only [List.mem_cons] at hc
      rcases hc with rfl | rfl | rfl | hc
      · exact h c (by simp)
      · exact Or.inr (by decide)
      · exact h c (by simp)
      · exact h c (by simp [hc])
    · exact h c hc
  · exact Or.inr (by decide)
  · exact hsign c hc
  · exact (numeric_toDigits _).numerals c hc

theorem numeric_layout (layout : Decimal.Layout) (x : Binary64) : Numeric (layout.write x) := by
  have hsign : ∀ c ∈ (if x.isNegative then ['-'] else []), IsNumeral c := by
    intro c hc
    split_ifs at hc
    · exact Or.inr (by simp_all)
    · cases hc
  have hprepend : ∀ text, Numeric text → Numeric ((if x.isNegative then ['-'] else []) ++ text) := by
    intro text htext
    refine ⟨by simp [htext.ne_nil], fun c hc => ?_⟩
    rcases List.mem_append.mp hc with hc | hc
    · exact hsign c hc
    · exact htext.numerals c hc
  have hdigits : ∀ c ∈ ((Nat.toDigits 10 (Decimal.shortest x).digits).reverse.dropWhile (· = '0')).reverse,
      IsNumeral c := by
    intro c hc
    have hmem := (List.dropWhile_sublist _).subset (List.mem_reverse.mp hc)
    exact (numeric_toDigits _).numerals c (List.mem_reverse.mp hmem)
  have hfraction : Numeric ['.', '0'] := numeric_cons (by decide) (numeric_toDigits 0).numerals
  have hzero : Numeric ['0', '.', '0'] := numeric_cons (by decide) hfraction.numerals
  unfold Decimal.Layout.write
  dsimp only
  split
  · exact hprepend _ hzero
  · apply hprepend
    split
    · exact numeric_placePoint hdigits _
    · exact numeric_withExponent _ hdigits _

theorem numeric_write (n : Number) : Numeric n.write := by
  cases n with
  | int value =>
      rw [Number.write]
      split_ifs
      · exact numeric_cons (Or.inr (by decide)) (numeric_toDigits _).numerals
      · exact numeric_toDigits _
  | float value => exact numeric_layout floatLayout value

theorem Numeric.starts {text : List Char} (h : Numeric text) : Starts text := by
  obtain ⟨c, more, rfl⟩ := List.exists_cons_of_ne_nil h.ne_nil
  exact ⟨c, more, rfl, (h.numerals c List.mem_cons_self).isFirst⟩

theorem Numeric.unbroken {text : List Char} (h : Numeric text) : Markdown.Unbroken text :=
  ⟨fun hmem => absurd (h.numerals '\n' hmem) (by decide), fun hmem => absurd (h.numerals '\r' hmem) (by decide)⟩

/-! ### Values -/

namespace Value

theorem starts_prettyChars (level : Nat) (value : Value) : Starts (value.prettyChars level) := by
  cases value with
  | null => exact ⟨'n', _, rfl, by decide⟩
  | bool b => cases b <;> exact ⟨_, _, rfl, by decide⟩
  | num n => exact (numeric_write n).starts
  | str s => exact ⟨'"', _, rfl, by decide⟩
  | arr items => cases items <;> exact ⟨'[', _, rfl, by decide⟩
  | obj members => cases members <;> exact ⟨'{', _, rfl, by decide⟩

/-- A separator in front of an item that is not the first. -/
theorem laid_separator (first : Bool) : Laid (if first then [] else [',']) := by
  cases first <;> exact .of_unbroken (by decide)

theorem laid_close {c : Char} (hc : IsFirst c) (hunbroken : Markdown.Unbroken [c]) (level : Nat) :
    Laid (newline level ++ [c]) := (Laid.of_unbroken hunbroken).newline ⟨c, [], rfl, hc⟩ level

mutual

theorem laid_prettyChars : ∀ (level : Nat) (value : Value), Laid (value.prettyChars level)
  | _, .null => show Laid "null".toList from .of_unbroken (by decide)
  | _, .bool true => show Laid "true".toList from .of_unbroken (by decide)
  | _, .bool false => show Laid "false".toList from .of_unbroken (by decide)
  | _, .num n => .of_unbroken (numeric_write n).unbroken
  | _, .str s => .of_unbroken (quote_unbroken s)
  | _, .arr [] => show Laid ['[', ']'] from .of_unbroken (by decide)
  | level, .arr (item :: rest) => by
    have hopen : Laid ['['] := .of_unbroken (by decide)
    rw [prettyChars, List.append_assoc]
    exact hopen.append ((laid_prettyItems (level + 1) true (item :: rest)).append
      (laid_close (by decide) (by decide) level))
  | _, .obj [] => show Laid ['{', '}'] from .of_unbroken (by decide)
  | level, .obj (member :: rest) => by
    have hopen : Laid ['{'] := .of_unbroken (by decide)
    rw [prettyChars, List.append_assoc]
    exact hopen.append ((laid_prettyMembers (level + 1) true (member :: rest)).append
      (laid_close (by decide) (by decide) level))

theorem laid_prettyItems : ∀ (level : Nat) (first : Bool) (items : List Value), Laid (prettyItems level first items)
  | _, _, [] => .of_unbroken ⟨by simp [prettyItems], by simp [prettyItems]⟩
  | level, first, item :: rest => by
    have hitem := (laid_prettyChars level item).newline (starts_prettyChars level item) level
    rw [prettyItems, List.append_assoc _ (newline level)]
    exact ((laid_separator first).append hitem).append (laid_prettyItems level false rest)

theorem laid_prettyMembers : ∀ (level : Nat) (first : Bool) (members : List (String × Value)),
    Laid (prettyMembers level first members)
  | _, _, [] => .of_unbroken ⟨by simp [prettyMembers], by simp [prettyMembers]⟩
  | level, first, (key, item) :: rest => by
    have hkey := (Laid.of_unbroken (quote_unbroken key)).newline ⟨'"', _, rfl, by decide⟩ level
    have hcolon : Laid [':', ' '] := .of_unbroken (by decide)
    have hitem := hcolon.append (laid_prettyChars level item)
    rw [prettyMembers, List.append_assoc _ (newline level)]
    exact (((laid_separator first).append hkey).append hitem).append (laid_prettyMembers level false rest)

end

end Value

/-! ### Lines -/

/-- If a text is taken to start with a line break, each of its pieces stands behind one, up to the next or to the
end. -/
theorem exists_break_before {text piece : List Char} (h : piece ∈ Text.pieces '\n' text) :
    ∃ before rest, '\n' :: text = before ++ '\n' :: (piece ++ rest) ∧ (rest = [] ∨ ∃ after, rest = '\n' :: after) := by
  obtain ⟨front, back, hpieces⟩ := List.append_of_mem h
  have htext := Text.flatMap_pieces '\n' text
  rw [hpieces, List.flatMap_append, List.flatMap_cons] at htext
  obtain ⟨before, hbefore⟩ : ∃ before, '\n' :: (front.flatMap fun piece => piece ++ ['\n']) = before ++ ['\n'] := by
    rcases List.eq_nil_or_concat front with rfl | ⟨front, last, rfl⟩
    · exact ⟨[], rfl⟩
    · exact ⟨'\n' :: (front.flatMap fun piece => piece ++ ['\n']) ++ last, by simp⟩
  obtain ⟨rest, hrest, hend⟩ : ∃ rest, '\n' :: (back.flatMap fun piece => piece ++ ['\n']) = rest ++ ['\n'] ∧
      (rest = [] ∨ ∃ after, rest = '\n' :: after) := by
    rcases List.eq_nil_or_concat back with rfl | ⟨back, last, rfl⟩
    · exact ⟨[], rfl, Or.inl rfl⟩
    · exact ⟨'\n' :: (back.flatMap fun piece => piece ++ ['\n']) ++ last, by simp, Or.inr ⟨_, rfl⟩⟩
  refine ⟨before, rest, ?_, hend⟩
  apply @List.append_cancel_right _ _ ['\n']
  calc '\n' :: text ++ ['\n']
      = '\n' :: (front.flatMap fun piece => piece ++ ['\n']) ++
        (piece ++ '\n' :: back.flatMap fun piece => piece ++ ['\n']) := by
        rw [List.cons_append, ← htext]
        simp
    _ = before ++ '\n' :: (piece ++ rest) ++ ['\n'] := by
        rw [hbefore, hrest]
        simp

theorem Laid.pieces {text piece : List Char} (h : Laid text) (hstart : Starts text)
    (hpiece : piece ∈ Text.pieces '\n' text) :
    ∃ n c more, piece = List.replicate n ' ' ++ c :: more ∧ IsFirst c := by
  obtain ⟨before, rest, hsplit, hrest⟩ := exists_break_before hpiece
  -- With a break in front, the first line is like all others.
  have hall : Laid ('\n' :: text) := h.newline hstart 0
  obtain ⟨n, c, more, hline, hc⟩ := hall.indented before (piece ++ rest) hsplit
  rcases hrest with rfl | ⟨after, rfl⟩
  · exact ⟨n, c, more, by simpa using hline, hc⟩
  · have hfirst : piece ++ '\n' :: after = (List.replicate n ' ' ++ [c]) ++ more := by simpa using hline
    rcases List.append_eq_append_iff.mp hfirst with ⟨middle, hmiddle, hafter⟩ | ⟨middle, rfl, -⟩
    · -- The break cannot stand among the spaces, nor be the first character.
      cases middle with
      | nil => exact ⟨n, c, [], by simpa using hmiddle.symm, hc⟩
      | cons d middle =>
          obtain ⟨rfl, -⟩ := List.cons_eq_cons.mp hafter
          have hmem : '\n' ∈ List.replicate n ' ' ++ [c] := by simp [hmiddle]
          rcases List.mem_append.mp hmem with hmem | hmem
          · exact absurd (List.eq_of_mem_replicate hmem) (by decide)
          · rw [← List.mem_singleton.mp hmem] at hc
            exact absurd hc (by decide)
    · exact ⟨n, c, middle, by simp, hc⟩

theorem Value.pieces_pretty (value : Value) {piece : List Char} (h : piece ∈ Text.pieces '\n' value.pretty.toList) :
    ∃ n c more, piece = List.replicate n ' ' ++ c :: more ∧ IsFirst c := by
  rw [Value.pretty, String.toList_ofList] at h
  exact (Value.laid_prettyChars 0 value).pieces (Value.starts_prettyChars 0 value) h

end RouteBook.Json
