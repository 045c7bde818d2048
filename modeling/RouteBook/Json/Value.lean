import RouteBook.Json.Outline

/-! JSON values. The members of an object are kept sorted by key, and of a repeated key the last value
counts, so that an object is a finite map with one written form. -/

namespace RouteBook.Json

inductive Value
  | null
  | bool (b : Bool)
  | num (n : Number)
  | str (s : String)
  | arr (items : List Value)
  | obj (members : List (String × Value))
  deriving Inhabited

namespace Value

/-- Puts a member in its place by key, replacing the value of an equal key. -/
def insert (key : String) (value : α) : List (String × α) → List (String × α)
  | [] => [(key, value)]
  | (k, v) :: rest =>
    if key < k then (key, value) :: (k, v) :: rest
    else if key = k then (key, value) :: rest
    else (k, v) :: insert key value rest

/-- The sorted members of a list in which a later value replaces an earlier one of the same key. -/
def sortMembers (members : List (String × α)) : List (String × α) :=
  members.foldl (fun sorted (key, value) => insert key value sorted) []

/-- Members in strictly increasing order of their keys. -/
def Sorted (members : List (String × α)) : Prop := members.Pairwise (·.1 < ·.1)

theorem mem_insert {key : String} {value : α} {members : List (String × α)} {m : String × α}
    (h : m ∈ insert key value members) : m = (key, value) ∨ m ∈ members := by
  induction members with
  | nil => simpa [insert] using h
  | cons head rest ih =>
    obtain ⟨k, v⟩ := head
    simp only [insert] at h
    split at h
    · simpa using h
    · split at h
      · rcases List.mem_cons.mp h with rfl | h
        · exact .inl rfl
        · exact .inr (List.mem_cons_of_mem _ h)
      · rcases List.mem_cons.mp h with rfl | h
        · exact .inr List.mem_cons_self
        · exact (ih h).imp_right (List.mem_cons_of_mem _)

theorem sorted_insert {key : String} {value : α} {members : List (String × α)} (h : Sorted members) :
    Sorted (insert key value members) := by
  induction members with
  | nil => simp [insert, Sorted]
  | cons head rest ih =>
    obtain ⟨k, v⟩ := head
    obtain ⟨above, tail⟩ := List.pairwise_cons.mp h
    simp only [insert]
    split
    · next less =>
      refine List.pairwise_cons.mpr ⟨fun m hm => ?_, h⟩
      rcases List.mem_cons.mp hm with rfl | hm
      · exact less
      · exact String.lt_trans less (above m hm)
    · next notLess =>
      split
      · next same => subst same; exact List.pairwise_cons.mpr ⟨above, tail⟩
      · next other =>
        refine List.pairwise_cons.mpr ⟨fun m hm => ?_, ih tail⟩
        rcases mem_insert hm with rfl | hm
        · exact Std.lt_of_le_of_ne (String.not_lt.mp notLess) (Ne.symm other)
        · exact above m hm

theorem sorted_foldl_insert (members sorted : List (String × α)) (h : Sorted sorted) :
    Sorted (members.foldl (fun sorted (key, value) => insert key value sorted) sorted) := by
  induction members generalizing sorted with
  | nil => exact h
  | cons member rest ih => exact ih _ (sorted_insert h)

theorem sorted_sortMembers (members : List (String × α)) : Sorted (sortMembers members) :=
  sorted_foldl_insert members [] List.Pairwise.nil

mutual

/-- The value of an outline without a fault, or its fault. -/
def ofOutline : Outline → Except Fault Value
  | .null => .ok .null
  | .bool b => .ok (.bool b)
  | .num n => .ok (.num n)
  | .str s => .ok (.str s)
  | .seq items tear => do
    let values ← ofItems items
    match tear with
    | none => .ok (.arr values)
    | some fault => .error fault
  | .map members tear => do
    let values ← ofMembers members
    match tear with
    | none => .ok (.obj (sortMembers values))
    | some fault => .error fault
  | .torn fault => .error fault

def ofItems : List Outline → Except Fault (List Value)
  | [] => .ok []
  | item :: rest => do
    let value ← ofOutline item
    let values ← ofItems rest
    .ok (value :: values)

def ofMembers : List (String × Outline) → Except Fault (List (String × Value))
  | [] => .ok []
  | (key, item) :: rest => do
    let value ← ofOutline item
    let values ← ofMembers rest
    .ok ((key, value) :: values)

end

/-- Reads one value off the front of a text, with brackets nested at most `levels` deep. -/
def read (levels : Nat) : Reader Value := fun text => do
  let reading := Outline.read levels text
  let value ← ofOutline reading.value
  .ok (value, reading.rest.getD [])

/-- Nothing but white space may follow. -/
def readEnd (rest : List Char) : Except Fault Unit :=
  match skipSpace rest with
  | [] => .ok ()
  | left => .error (.next .trailingCharacters left)

def parse (text : String) : Except Fault Value := do
  let (value, rest) ← read Outline.maxLevels text.toList
  readEnd rest
  .ok value

end Value

end RouteBook.Json
