import RouteBook.Proofs.Json.Layout
import RouteBook.Proofs.Json.Tokens

/-! Ways to write a value. The strings, integers and words of a text are written as they are printed, but any white space
may stand between its tokens, and the members of an object may come in any order. Whatever is written so is read as the
value it spells, and reading goes on behind it. -/

namespace RouteBook.Json

/-- Items with commas between them and white space around; `first` holds before the first one. -/
inductive Row {α : Type} (writes : List Char → α → Prop) : Bool → List Char → List α → Prop
  | nil {first : Bool} {gap : List Char} (hgap : Blank gap) : Row writes first gap []
  | cons {first : Bool} {gap text more : List Char} {item : α} {items : List α} (hgap : Blank gap)
    (hitem : writes text item) (hmore : Row writes false more items) :
    Row writes first ((if first then [] else [',']) ++ (gap ++ (text ++ more))) (item :: items)

/-- A value without brackets. -/
inductive Scalar : List Char → Value → Prop
  | null : Scalar "null".toList .null
  | bool (b : Bool) : Scalar (if b then "true".toList else "false".toList) (.bool b)
  | num {n : Number} (h : n.Integral) : Scalar n.write (.num n)
  | str (s : String) : Scalar (quote s) (.str s)

/-- A key, a colon and a value. -/
inductive Member (spells : List Char → Value → Prop) : List Char → String × Value → Prop
  | mk (key : String) {gap text : List Char} {value : Value} (hgap : Blank gap) (h : spells text value) :
    Member spells (quote key ++ ':' :: (gap ++ text)) (key, value)

/-- A list or an object of what `spells` writes. -/
inductive Bracketed (spells : List Char → Value → Prop) : List Char → Value → Prop
  | arr {text : List Char} {items : List Value} (h : Row spells true text items) :
    Bracketed spells ('[' :: (text ++ [']'])) (.arr items)
  | obj {text : List Char} {members : List (String × Value)} (h : Row (Member spells) true text members) :
    Bracketed spells ('{' :: (text ++ ['}'])) (.obj (Value.sortMembers members))

/-- A text that writes a value, with brackets nested at most `levels` deep. -/
def Spells : Nat → List Char → Value → Prop
  | 0, text, value => Scalar text value
  | levels + 1, text, value => Scalar text value ∨ Bracketed (Spells levels) text value

theorem Scalar.spells {text : List Char} {value : Value} (h : Scalar text value) (levels : Nat) :
    Spells levels text value := by
  cases levels with
  | zero => exact h
  | succ levels => exact Or.inl h

/-- A text that is read as a value wherever it stands, unless what follows goes on with it. -/
def ReadsAs (levels : Nat) (text : List Char) (value : Value) : Prop :=
  ∀ rest, Ends rest → ∃ outline, Outline.read levels (text ++ rest) = ⟨outline, some rest⟩ ∧
    Value.ofOutline outline = .ok value

/-! ### Where items begin and end -/

/-- A text that starts with the first character of an item: no white space, comma or closing bracket. -/
def Opens (text : List Char) : Prop := ∃ c more, text = c :: more ∧ isSpace c = false ∧ c ≠ ',' ∧ c ≠ ']'

theorem Opens.append {text : List Char} (h : Opens text) (rest : List Char) : Opens (text ++ rest) := by
  obtain ⟨c, more, rfl, hc⟩ := h
  exact ⟨c, more ++ rest, rfl, hc⟩

theorem Opens.skipSpace {text : List Char} (h : Opens text) : skipSpace text = text := by
  obtain ⟨c, more, rfl, hc, -⟩ := h
  exact skipSpace_cons hc more

theorem opens_quote (s : String) : Opens (quote s) := ⟨'"', _, rfl, by decide⟩

theorem opens_write (n : Number) : Opens n.write := by
  have hnumeric := numeric_write n
  obtain ⟨c, more, hcons⟩ := List.exists_cons_of_ne_nil hnumeric.ne_nil
  have hc : IsNumeral c := hnumeric.numerals c (by simp [hcons])
  refine ⟨c, more, hcons, ?_, ?_, ?_⟩
  · rw [Bool.eq_false_iff]
    intro hspace
    simp only [isSpace, Bool.or_eq_true, decide_eq_true_eq] at hspace
    rcases hspace with ((rfl | rfl) | rfl) | rfl <;> exact absurd hc (by decide)
  · rintro rfl
    exact absurd hc (by decide)
  · rintro rfl
    exact absurd hc (by decide)

theorem Scalar.opens {text : List Char} {value : Value} (h : Scalar text value) : Opens text := by
  cases h with
  | null => exact ⟨'n', _, rfl, by decide⟩
  | bool b => cases b <;> exact ⟨_, _, rfl, by decide⟩
  | num h => exact opens_write _
  | str s => exact opens_quote s

theorem Spells.opens {levels : Nat} {text : List Char} {value : Value} (h : Spells levels text value) : Opens text := by
  cases levels with
  | zero => exact Scalar.opens h
  | succ levels =>
      rcases h with h | h
      · exact h.opens
      · cases h with
        | arr h => exact ⟨'[', _, rfl, by decide⟩
        | obj h => exact ⟨'{', _, rfl, by decide⟩

theorem ends_cons {c : Char} (hc : c ∈ [' ', '\n', '\t', '\r', ',', ']', '}']) (rest : List Char) :
    Ends (c :: rest) := by
  intro d hd
  obtain rfl := Option.some.inj hd
  fin_cases hc <;> decide

theorem ends_append {gap rest : List Char} (hgap : Blank gap) (hrest : Ends rest) : Ends (gap ++ rest) := by
  cases gap with
  | nil => exact hrest
  | cons c gap =>
      have hc := hgap c List.mem_cons_self
      simp only [isSpace, Bool.or_eq_true, decide_eq_true_eq] at hc
      exact ends_cons (by simp only [List.mem_cons]; tauto) _

section Rows

variable {α : Type} {writes : List Char → α → Prop} {levels : Nat}

/-- Behind an item stands white space, a comma or the closing bracket. -/
theorem Row.ends {more : List Char} {items : List α} (h : Row writes false more items) {close : Char}
    (hclose : close ∈ [']', '}']) (rest : List Char) : Ends (more ++ close :: rest) := by
  cases h with
  | nil hgap =>
      refine ends_append hgap (ends_cons ?_ rest)
      simp only [List.mem_cons] at hclose ⊢
      tauto
  | cons hgap hitem hmore => exact ends_cons (by decide) _

theorem Row.length_le {first : Bool} {text : List Char} {items : List α} (h : Row writes first text items)
    (hopens : ∀ text item, writes text item → Opens text) : items.length ≤ text.length := by
  induction h with
  | nil hgap => exact Nat.zero_le _
  | cons hgap hitem hmore ih =>
      obtain ⟨c, behind, rfl, -⟩ := hopens _ _ hitem
      simp only [List.length_append, List.length_cons]
      omega

end Rows

namespace Outline

variable {value : List Char → Reading Outline} {fuel : Nat} {first : Bool} {gap text rest : List Char} {outline : Outline}

theorem readItems_close (hgap : Blank gap) :
    readItems value (fuel + 1) first (gap ++ ']' :: rest) = ⟨([], none), some rest⟩ := by
  rw [readItems, skipSpace_append hgap, skipSpace_cons (by decide)]
  rfl

theorem readItems_item (hgap : Blank gap) (hopens : Opens text) (hvalue : value text = ⟨outline, some rest⟩) :
    readItems value (fuel + 1) first ((if first then [] else [',']) ++ (gap ++ text)) =
      (readItems value fuel false rest).push outline := by
  have hskip : skipSpace (gap ++ text) = text := by rw [skipSpace_append hgap, hopens.skipSpace]
  obtain ⟨c, more, rfl, -, hcomma, hclose⟩ := hopens
  cases first with
  | true =>
      rw [if_pos rfl, List.nil_append, readItems, hskip]
      simp [hcomma, hclose, hvalue]
  | false =>
      rw [if_neg (by decide), List.singleton_append, readItems, skipSpace_cons (by decide)]
      simp [hskip, hclose, hvalue]

theorem readMembers_close (hgap : Blank gap) :
    readMembers value (fuel + 1) first (gap ++ '}' :: rest) = ⟨([], none), some rest⟩ := by
  rw [readMembers, skipSpace_append hgap, skipSpace_cons (by decide)]
  rfl

theorem readMembers_member (hgap : Blank gap) (key : String) (hvalue : value text = ⟨outline, some rest⟩) :
    readMembers value (fuel + 1) first ((if first then [] else [',']) ++ (gap ++ (quote key ++ ':' :: text))) =
      (readMembers value fuel false rest).push (key, outline) := by
  have hskip : skipSpace (gap ++ (quote key ++ ':' :: text)) =
      '"' :: (key.toList.flatMap escape ++ '"' :: ':' :: text) := by
    rw [skipSpace_append hgap, quote_append, skipSpace_cons (by decide)]
  have hcolon : skipSpace (':' :: text) = ':' :: text := skipSpace_cons (by decide) text
  cases first with
  | true =>
      rw [if_pos rfl, List.nil_append, readMembers, hskip]
      simp [readString_escape, hcolon, hvalue]
  | false =>
      rw [if_neg (by decide), List.singleton_append, readMembers, skipSpace_cons (by decide)]
      simp [hskip, readString_escape, hcolon, hvalue]

/-! ### Rows -/

theorem readItems_row {levels : Nat} {spells : List Char → Value → Prop}
    (hreads : ∀ text value, spells text value → ReadsAs levels text value)
    (hopens : ∀ text value, spells text value → Opens text) {items : List Value} (h : Row spells first text items)
    (hfuel : items.length < fuel) (rest : List Char) :
    ∃ outlines, readItems (read levels) fuel first (text ++ ']' :: rest) = ⟨(outlines, none), some rest⟩ ∧
      Value.ofItems outlines = .ok items := by
  induction h generalizing fuel with
  | nil hgap =>
      obtain ⟨fuel, rfl⟩ := Nat.exists_eq_succ_of_ne_zero (by omega : fuel ≠ 0)
      exact ⟨[], readItems_close hgap, rfl⟩
  | @cons first gap text more item items hgap hitem hmore ih =>
      obtain ⟨fuel, rfl⟩ := Nat.exists_eq_succ_of_ne_zero (by omega : fuel ≠ 0)
      have hends : Ends (more ++ ']' :: rest) := hmore.ends (by decide) rest
      obtain ⟨outline, hread, hvalue⟩ := hreads text item hitem _ hends
      obtain ⟨outlines, hrun, hvalues⟩ := ih (by simpa using hfuel)
      refine ⟨outline :: outlines, ?_, ?_⟩
      · simp only [List.append_assoc]
        rw [readItems_item hgap ((hopens text item hitem).append _) hread, hrun]
        rfl
      · rw [Value.ofItems, hvalue, hvalues]
        rfl

theorem readMembers_row {levels : Nat} {spells : List Char → Value → Prop}
    (hreads : ∀ text value, spells text value → ReadsAs levels text value) {members : List (String × Value)}
    (h : Row (Member spells) first text members) (hfuel : members.length < fuel) (rest : List Char) :
    ∃ outlines, readMembers (read levels) fuel first (text ++ '}' :: rest) = ⟨(outlines, none), some rest⟩ ∧
      Value.ofMembers outlines = .ok members := by
  induction h generalizing fuel with
  | nil hgap =>
      obtain ⟨fuel, rfl⟩ := Nat.exists_eq_succ_of_ne_zero (by omega : fuel ≠ 0)
      exact ⟨[], readMembers_close hgap, rfl⟩
  | @cons first gap text more member members hgap hmember hmore ih =>
      obtain ⟨fuel, rfl⟩ := Nat.exists_eq_succ_of_ne_zero (by omega : fuel ≠ 0)
      obtain ⟨key, hspace, hspells⟩ := hmember
      have hends : Ends (more ++ '}' :: rest) := hmore.ends (by decide) rest
      obtain ⟨outline, hread, hvalue⟩ := hreads _ _ hspells _ hends
      obtain ⟨outlines, hrun, hvalues⟩ := ih (by simpa using hfuel)
      refine ⟨(key, outline) :: outlines, ?_, ?_⟩
      · rw [← read_skipSpace, ← skipSpace_append hspace, read_skipSpace] at hread
        simp only [List.append_assoc, List.cons_append]
        rw [readMembers_member hgap key hread, hrun]
        rfl
      · rw [Value.ofMembers, hvalue, hvalues]
        rfl

end Outline

/-! ### Values -/

theorem Scalar.readsAs {text : List Char} {value : Value} (h : Scalar text value) (levels : Nat) :
    ReadsAs levels text value := by
  intro rest hrest
  cases h with
  | null => exact ⟨.null, Outline.read_null levels rest, rfl⟩
  | bool b => exact ⟨.bool b, Outline.read_bool levels b rest, rfl⟩
  | num h => exact ⟨.num _, Outline.read_number levels h hrest, rfl⟩
  | str s => exact ⟨.str s, Outline.read_string levels s rest, rfl⟩

theorem Bracketed.readsAs {levels : Nat} {spells : List Char → Value → Prop}
    (hreads : ∀ text value, spells text value → ReadsAs levels text value)
    (hopens : ∀ text value, spells text value → Opens text) {text : List Char} {value : Value}
    (h : Bracketed spells text value) : ReadsAs (levels + 1) text value := by
  intro rest _
  cases h with
  | @arr text items h =>
      have hfuel : items.length < (text ++ ']' :: rest).length + 1 := by
        have hlength := h.length_le hopens
        rw [List.length_append]
        omega
      obtain ⟨outlines, hrun, hvalues⟩ := Outline.readItems_row hreads hopens h hfuel rest
      refine ⟨.seq outlines none, ?_, ?_⟩
      · rw [List.cons_append, List.append_assoc, List.singleton_append, Outline.read, skipSpace_cons (by decide)]
        simp only [hrun]
      · rw [Value.ofOutline, hvalues]
        rfl
  | @obj text members h =>
      have hmember : ∀ text member, Member spells text member → Opens text := by
        rintro text member ⟨key, hgap, hspells⟩
        exact (opens_quote key).append _
      have hfuel : members.length < (text ++ '}' :: rest).length + 1 := by
        have hlength := h.length_le hmember
        rw [List.length_append]
        omega
      obtain ⟨outlines, hrun, hvalues⟩ := Outline.readMembers_row hreads h hfuel rest
      refine ⟨.map outlines none, ?_, ?_⟩
      · rw [List.cons_append, List.append_assoc, List.singleton_append, Outline.read, skipSpace_cons (by decide)]
        simp only [hrun]
      · rw [Value.ofOutline, hvalues]
        rfl

/-- A value is read back from any text that spells it. -/
theorem Spells.readsAs {levels : Nat} {text : List Char} {value : Value} (h : Spells levels text value) :
    ReadsAs levels text value := by
  induction levels generalizing text value with
  | zero => exact Scalar.readsAs h 0
  | succ levels ih =>
      rcases h with h | h
      · exact h.readsAs (levels + 1)
      · exact h.readsAs (fun _ _ => ih) fun _ _ => Spells.opens

theorem Spells.read {levels : Nat} {text : List Char} {value : Value} (h : Spells levels text value) {rest : List Char}
    (hrest : Ends rest) : Value.read levels (text ++ rest) = .ok (value, rest) := by
  obtain ⟨outline, hread, hvalue⟩ := h.readsAs rest hrest
  simp only [Value.read, hread, hvalue]
  rfl

theorem Spells.parse {text : List Char} {value : Value} (h : Spells Outline.maxLevels text value) :
    Value.parse (String.ofList text) = .ok value := by
  have hread : Value.read Outline.maxLevels (text ++ []) = .ok (value, []) := h.read (by simp [Ends])
  rw [List.append_nil] at hread
  rw [Value.parse, String.toList_ofList, hread]
  rfl

end RouteBook.Json
