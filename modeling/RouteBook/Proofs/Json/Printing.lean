import RouteBook.Proofs.Json.Reading
import RouteBook.Proofs.Json.Spelling

/-! Printed forms are read back. Compact or pretty, the printed form of a value that reading can give spells this value if
its numbers are integers, so reading gives the value again. The pretty form holds no control characters but line feeds. -/

namespace RouteBook.Json

namespace Value

/-! ### Integers only -/

mutual

/-- All numbers in a value. -/
def numbers : Value → List Number
  | .num n => [n]
  | .arr items => itemNumbers items
  | .obj members => memberNumbers members
  | _ => []

def itemNumbers : List Value → List Number
  | [] => []
  | item :: rest => item.numbers ++ itemNumbers rest

def memberNumbers : List (String × Value) → List Number
  | [] => []
  | (_, item) :: rest => item.numbers ++ memberNumbers rest

end

/-- All numbers in a value are integers of 64 bits, signed or unsigned. -/
def Integral (value : Value) : Prop := ∀ n ∈ value.numbers, n.Integral

theorem integral_arr_iff {items : List Value} : Integral (.arr items) ↔ ∀ item ∈ items, item.Integral := by
  rw [Integral, numbers]
  induction items with
  | nil => simp [itemNumbers]
  | cons item items ih => rw [itemNumbers, List.forall_mem_append, ih, List.forall_mem_cons, Integral]

theorem integral_obj_iff {members : List (String × Value)} :
    Integral (.obj members) ↔ ∀ member ∈ members, member.2.Integral := by
  rw [Integral, numbers]
  induction members with
  | nil => simp [memberNumbers]
  | cons member members ih => rw [memberNumbers, List.forall_mem_append, ih, List.forall_mem_cons, Integral]

/-! ### Printed forms -/

theorem insert_of_lt {α : Type} {key : String} {value : α} {members : List (String × α)}
    (h : ∀ member ∈ members, member.1 < key) : insert key value members = members ++ [(key, value)] := by
  induction members with
  | nil => rfl
  | cons member members ih =>
      have hless := h member List.mem_cons_self
      have hne : key ≠ member.1 := fun heq => String.lt_irrefl key (heq ▸ hless)
      rw [insert, if_neg (String.lt_asymm hless), if_neg hne,
        ih fun other hother => h other (List.mem_cons_of_mem member hother), List.cons_append]

/-- Members in order stay as they are. -/
theorem sortMembers_of_sorted {α : Type} {members : List (String × α)} (h : Sorted members) :
    sortMembers members = members := by
  have hfold : ∀ front, Sorted (front ++ members) →
      members.foldl (fun sorted (key, value) => insert key value sorted) front = front ++ members := by
    clear h
    induction members with
    | nil => exact fun front _ => (List.append_nil front).symm
    | cons member members ih =>
        intro front hsorted
        obtain ⟨key, value⟩ := member
        have hless : ∀ other ∈ front, other.1 < key :=
          fun other hother => (List.pairwise_append.mp hsorted).2.2 other hother (key, value) List.mem_cons_self
        rw [List.append_cons] at hsorted ⊢
        simp only [List.foldl_cons, insert_of_lt hless]
        exact ih _ hsorted
  exact hfold [] h

theorem blank_newline (level : Nat) : Blank (newline level) := by
  intro c hc
  rcases List.mem_cons.mp hc with rfl | hc
  · rfl
  · rw [List.eq_of_mem_replicate hc]
    rfl

theorem blank_nil : Blank [] := fun _ hc => nomatch hc

section Rows

variable {spells : List Char → Value → Prop}

theorem row_prettyItems {level : Nat} {items : List Value}
    (h : ∀ item ∈ items, spells (item.prettyChars level) item) (first : Bool) {gap : List Char} (hgap : Blank gap) :
    Row spells first (prettyItems level first items ++ gap) items := by
  induction items generalizing first with
  | nil => exact .nil hgap
  | cons item items ih =>
      rw [List.forall_mem_cons] at h
      rw [prettyItems]
      simp only [List.append_assoc]
      exact .cons (blank_newline level) h.1 (ih h.2 false)

theorem row_prettyMembers {level : Nat} {members : List (String × Value)}
    (h : ∀ member ∈ members, spells (member.2.prettyChars level) member.2) (first : Bool) {gap : List Char}
    (hgap : Blank gap) : Row (Member spells) first (prettyMembers level first members ++ gap) members := by
  induction members generalizing first with
  | nil => exact .nil hgap
  | cons member members ih =>
      rw [List.forall_mem_cons] at h
      have hmember : Member spells (quote member.1 ++ ':' :: ([' '] ++ member.2.prettyChars level)) member :=
        .mk member.1 (by simp [Blank, isSpace]) h.1
      have hrow : Row (Member spells) first _ (member :: members) := .cons (blank_newline level) hmember (ih h.2 false)
      simpa [prettyMembers] using hrow

theorem row_compactItems {items : List Value} (h : ∀ item ∈ items, spells item.compactChars item) (first : Bool) :
    Row spells first (compactItems first items) items := by
  induction items generalizing first with
  | nil => exact .nil blank_nil
  | cons item items ih =>
      rw [List.forall_mem_cons] at h
      rw [compactItems]
      simp only [List.append_assoc]
      exact .cons blank_nil h.1 (ih h.2 false)

theorem row_compactMembers {members : List (String × Value)}
    (h : ∀ member ∈ members, spells member.2.compactChars member.2) (first : Bool) :
    Row (Member spells) first (compactMembers first members) members := by
  induction members generalizing first with
  | nil => exact .nil blank_nil
  | cons member members ih =>
      rw [List.forall_mem_cons] at h
      have hmember : Member spells (quote member.1 ++ ':' :: ([] ++ member.2.compactChars)) member :=
        .mk member.1 blank_nil h.1
      have hrow : Row (Member spells) first _ (member :: members) := .cons blank_nil hmember (ih h.2 false)
      simpa [compactMembers] using hrow

theorem bracketed_of_sorted {text : List Char} {members : List (String × Value)} (h : Sorted members)
    (hrow : Row (Member spells) true text members) : Bracketed spells ('{' :: (text ++ ['}'])) (.obj members) := by
  have hobj := Bracketed.obj hrow
  rwa [sortMembers_of_sorted h] at hobj

theorem bracketed_prettyItems {level : Nat} {items : List Value}
    (h : ∀ item ∈ items, spells (item.prettyChars (level + 1)) item) :
    Bracketed spells ((Value.arr items).prettyChars level) (.arr items) := by
  cases items with
  | nil => exact .arr (.nil blank_nil)
  | cons item items =>
      rw [prettyChars, List.cons_append]
      exact .arr (row_prettyItems h true (blank_newline level))

theorem bracketed_prettyMembers {level : Nat} {members : List (String × Value)} (hsorted : Sorted members)
    (h : ∀ member ∈ members, spells (member.2.prettyChars (level + 1)) member.2) :
    Bracketed spells ((Value.obj members).prettyChars level) (.obj members) := by
  cases members with
  | nil => exact bracketed_of_sorted hsorted (.nil blank_nil)
  | cons member members =>
      rw [prettyChars, List.cons_append]
      exact bracketed_of_sorted hsorted (row_prettyMembers h true (blank_newline level))

end Rows

/-- A printer whose lists and objects are written with brackets around what they hold. -/
structure Bracketing (print : Nat → Value → List Char) : Prop where
  scalar : ∀ {level text value}, Scalar text value → print level value = text
  arr : ∀ {level items} {spells : List Char → Value → Prop}, (∀ item ∈ items, spells (print (level + 1) item) item) →
    Bracketed spells (print level (.arr items)) (.arr items)
  obj : ∀ {level members} {spells : List Char → Value → Prop}, Sorted members →
    (∀ member ∈ members, spells (print (level + 1) member.2) member.2) →
      Bracketed spells (print level (.obj members)) (.obj members)

theorem bracketing_pretty : Bracketing prettyChars where
  scalar := by
    rintro level text value (- | b | - | s) <;> rfl
  arr := bracketed_prettyItems
  obj := bracketed_prettyMembers

theorem bracketing_compact : Bracketing fun _ => compactChars where
  scalar := by
    rintro level text value (- | b | - | s) <;> rfl
  arr := by
    intro level items spells h
    rw [compactChars, List.cons_append]
    exact .arr (row_compactItems h true)
  obj := by
    intro level members spells hsorted h
    rw [compactChars, List.cons_append]
    exact bracketed_of_sorted hsorted (row_compactMembers h true)

/-- What is printed with brackets spells every value that reading can give. -/
theorem Bracketing.spells {print : Nat → Value → List Char} (h : Bracketing print) {levels : Nat} {value : Value}
    (hvalue : Canonical levels value) (hint : value.Integral) (level : Nat) :
    Spells levels (print level value) value := by
  have hscalar : ∀ levels level text value, Scalar text value → Spells levels (print level value) value := by
    intro levels level text value htext
    rw [h.scalar htext]
    exact htext.spells levels
  induction levels using Nat.strongRecOn generalizing value level with
  | ind levels ih =>
      cases value with
      | null => exact hscalar levels level _ _ .null
      | bool b => exact hscalar levels level _ _ (.bool b)
      | num n => exact hscalar levels level _ _ (.num (hint n (by simp [numbers])))
      | str s => exact hscalar levels level _ _ (.str s)
      | arr items =>
          cases levels with
          | zero => exact hvalue.elim
          | succ inner =>
              rw [integral_arr_iff] at hint
              refine Or.inr (h.arr fun item hitem => ?_)
              exact ih inner (Nat.lt_succ_self inner) (hvalue item hitem) (hint item hitem) (level + 1)
      | obj members =>
          cases levels with
          | zero => exact hvalue.elim
          | succ inner =>
              rw [integral_obj_iff] at hint
              refine Or.inr (h.obj hvalue.1 fun member hmember => ?_)
              exact ih inner (Nat.lt_succ_self inner) (hvalue.2 member hmember) (hint member hmember) (level + 1)

/-- A value that was read is read back from its pretty form. -/
theorem parse_pretty {value : Value} (hvalue : Canonical Outline.maxLevels value) (hint : value.Integral) :
    parse value.pretty = .ok value := (bracketing_pretty.spells hvalue hint 0).parse

/-! ### Characters of the pretty form -/

/-- No control character other than the line feed. -/
def IsPrinted (c : Char) : Prop := 0x20 ≤ c.toNat ∨ c = '\n'

instance : DecidablePred IsPrinted := fun c => inferInstanceAs (Decidable (0x20 ≤ c.toNat ∨ c = '\n'))

def Printed (text : List Char) : Prop := ∀ c ∈ text, IsPrinted c

instance : DecidablePred Printed := List.decidableBAll IsPrinted

theorem printed_escape (c : Char) : Printed (escape c) := by
  have hdigit : ∀ n < 16, IsPrinted (Nat.digitChar n) := by decide
  unfold escape
  split_ifs with h₁ h₂ h₃ h₄ h₅ h₆ h₇ hcontrol
  · decide
  · decide
  · decide
  · decide
  · decide
  · decide
  · decide
  · have hhigh := hdigit (c.toNat / 16) (by omega)
    have hlow := hdigit (c.toNat % 16) (Nat.mod_lt _ (by decide))
    simp only [Printed, List.forall_mem_cons]
    exact ⟨by decide, by decide, by decide, by decide, hhigh, hlow, by simp⟩
  · rw [Printed, List.forall_mem_singleton]
    exact Or.inl (not_lt.mp hcontrol)

theorem printed_quote (s : String) : Printed (quote s) := by
  intro c hc
  simp only [quote, List.cons_append, List.mem_cons, List.mem_append, List.mem_flatMap, List.not_mem_nil, or_false] at hc
  rcases hc with rfl | ⟨d, -, hc⟩ | rfl
  · decide
  · exact printed_escape d c hc
  · decide

theorem printed_write (n : Number) : Printed n.write := by
  intro c hc
  rcases (numeric_write n).numerals c hc with hdigit | hmark
  · have hzero : 0x20 ≤ '0'.toNat := by decide
    exact Or.inl (hzero.trans (Char.isDigit_iff_toNat.mp hdigit).1)
  · fin_cases hmark <;> decide

theorem printed_newline (level : Nat) : Printed (newline level) := by
  intro c hc
  rcases List.mem_cons.mp hc with rfl | hc
  · decide
  · rw [List.eq_of_mem_replicate hc]
    decide

theorem printed_separator (first : Bool) : Printed (if first then [] else [',']) := by cases first <;> decide

mutual

theorem printed_prettyChars : ∀ (level : Nat) (value : Value), Printed (value.prettyChars level)
  | _, .null => (by decide : Printed "null".toList)
  | _, .bool true => (by decide : Printed "true".toList)
  | _, .bool false => (by decide : Printed "false".toList)
  | _, .num n => printed_write n
  | _, .str s => printed_quote s
  | _, .arr [] => (by decide : Printed ['[', ']'])
  | level, .arr (item :: rest) => by
    rw [prettyChars]
    simp only [Printed, List.forall_mem_cons, List.forall_mem_append]
    exact ⟨⟨⟨by decide, printed_prettyItems _ _ _⟩, printed_newline _⟩, by decide, by simp⟩
  | _, .obj [] => (by decide : Printed ['{', '}'])
  | level, .obj (member :: rest) => by
    rw [prettyChars]
    simp only [Printed, List.forall_mem_cons, List.forall_mem_append]
    exact ⟨⟨⟨by decide, printed_prettyMembers _ _ _⟩, printed_newline _⟩, by decide, by simp⟩

theorem printed_prettyItems : ∀ (level : Nat) (first : Bool) (items : List Value),
    Printed (prettyItems level first items)
  | _, _, [] => by simp [Printed, prettyItems]
  | level, first, item :: rest => by
    rw [prettyItems]
    simp only [Printed, List.forall_mem_append]
    exact ⟨⟨⟨printed_separator first, printed_newline _⟩, printed_prettyChars _ _⟩, printed_prettyItems _ _ _⟩

theorem printed_prettyMembers : ∀ (level : Nat) (first : Bool) (members : List (String × Value)),
    Printed (prettyMembers level first members)
  | _, _, [] => by simp [Printed, prettyMembers]
  | level, first, (key, item) :: rest => by
    rw [prettyMembers]
    simp only [Printed, List.forall_mem_append, List.forall_mem_cons]
    exact ⟨⟨⟨⟨printed_separator first, printed_newline _⟩, printed_quote key⟩, by decide, by decide,
      printed_prettyChars _ _⟩, printed_prettyMembers _ _ _⟩

end

end Value

end RouteBook.Json
