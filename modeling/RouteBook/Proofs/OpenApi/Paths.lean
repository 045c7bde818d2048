import RouteBook.OpenApi.Document
import RouteBook.Proofs.Text.Lookup

/-! The paths of a document. What a document has at a path is looked up in its tree, and each path occurs once, in the
order of the path map. For a document that was read from a text these are the keys of the text's `paths` object: reading
drops none and adds none, but it does not keep their order. -/

namespace RouteBook

open Json (Value Outline)

namespace Json.Value

variable {α : Type}

theorem lookup_insert (key other : String) (value : α) (members : List (String × α)) :
    (insert key value members).lookup other = if other = key then some value else members.lookup other := by
  induction members with
  | nil =>
      rw [insert, List.lookup_cons]
      split_ifs with heq
      · rw [heq, beq_self_eq_true]
      · rw [beq_eq_false_iff_ne.mpr heq]
  | cons member rest ih =>
      obtain ⟨name, old⟩ := member
      rw [insert]
      by_cases heq : other = key
      · rw [if_pos heq, heq] at ih ⊢
        split_ifs with hless hsame
        · exact List.lookup_cons_self
        · exact List.lookup_cons_self
        · rw [List.lookup_cons, beq_eq_false_iff_ne.mpr hsame, ih]
      · rw [if_neg heq] at ih ⊢
        split_ifs with hless hsame
        · rw [List.lookup_cons, beq_eq_false_iff_ne.mpr heq]
        · rw [← hsame, List.lookup_cons, List.lookup_cons, beq_eq_false_iff_ne.mpr heq]
        · rw [List.lookup_cons, List.lookup_cons, ih]

/-- Sorting keeps the last value of each key. -/
theorem lookup_sortMembers (key : String) (members : List (String × α)) :
    (sortMembers members).lookup key = members.reverse.lookup key := by
  have hfold : ∀ sorted : List (String × α),
      (members.foldl (fun sorted (key, value) => insert key value sorted) sorted).lookup key =
        (members.reverse.lookup key).or (sorted.lookup key) := by
    induction members with
    | nil => intro sorted; rfl
    | cons member rest ih =>
        intro sorted
        rw [List.foldl_cons, ih, List.reverse_cons, List.lookup_append, lookup_insert, Option.or_assoc]
        congr 1
        split_ifs with heq
        · rw [heq, List.lookup_cons_self, Option.some_or]
        · rw [List.lookup_cons, beq_eq_false_iff_ne.mpr heq, List.lookup_nil, Option.none_or]
  rw [sortMembers, hfold, List.lookup_nil, Option.or_none]

theorem Sorted.nodup {members : List (String × α)} (h : Sorted members) : (members.map Prod.fst).Nodup := by
  rw [List.Nodup, List.pairwise_map]
  refine h.imp fun {a b} hless heq => ?_
  rw [heq] at hless
  exact String.lt_irrefl _ hless

end Json.Value

namespace OpenApi

variable {document : Document} {path : String} {text : String}

/-! ### Paths of a document -/

/-- What the tree of a document has at a path. -/
def itemAt? (document : Document) (path : String) : Option Value :=
  (member? "paths" document.tree).bind (member? path)

theorem member?_eq (key : String) (tree : Value) : member? key tree = (members tree).lookup key := by
  cases tree <;> rfl

theorem lookup_paths (document : Document) (path : String) :
    document.paths.entries.lookup path = (itemAt? document path).map PathItem.ofTree := by
  rw [Document.paths, PathMap.ofMembers, Value.lookup_sortMembers, List.reverse_reverse, lookup_mapSnd, itemAt?]
  cases member? "paths" document.tree with
  | none => rfl
  | some tree => rw [Option.map_some, Option.getD_some, Option.bind_some, member?_eq]

theorem nodup_paths (document : Document) : (document.paths.entries.map Prod.fst).Nodup :=
  Value.Sorted.nodup document.paths.sorted

theorem mem_paths_iff_isSome : path ∈ document.paths.entries.map Prod.fst ↔ (itemAt? document path).isSome = true := by
  rw [mem_keys_iff_isSome, lookup_paths, Option.isSome_map]

/-! ### Reading shapes -/

namespace Shape

open Json (Fault)

variable {schemas shape : Shape} {fuel : Nat} {outline : Outline} {tree : Value}
  {fields trailing : List (String × Presence × Shape)} {key : String}

/-- How an object is read. -/
theorem read_object (h : read schemas (fuel + 1) (.object fields trailing) outline = .ok tree) :
    ∃ members given extensions written more, outline = .map members none ∧
      readFields (read schemas fuel) (fields ++ trailing) members [] [] = .ok (given, extensions) ∧
      writeFields given fields = .ok written ∧ writeFields given trailing = .ok more ∧
      tree = .obj (written ++ extensions ++ more) := by
  cases outline with
  | map members tear =>
      simp only [read] at h
      cases hfields : readFields (read schemas fuel) (fields ++ trailing) members [] [] with
      | error fault => rw [hfields] at h; cases h
      | ok found =>
          obtain ⟨given, extensions⟩ := found
          rw [hfields] at h
          simp only [bind, Except.bind] at h
          cases tear with
          | some fault => cases h
          | none =>
              cases hwritten : writeFields given fields with
              | error fault => simp only [hwritten] at h; cases h
              | ok written =>
                  cases hmore : writeFields given trailing with
                  | error fault => simp only [hwritten, hmore] at h; cases h
                  | ok more =>
                      simp only [hwritten, hmore] at h
                      cases h
                      exact ⟨members, given, extensions, written, more, rfl, hfields, hwritten, hmore, rfl⟩
  | _ => simp [read, mismatch, wrong] at h

/-- How a map with extension keys is read. -/
theorem read_entries (h : read schemas (fuel + 1) (.entries shape) outline = .ok tree) :
    ∃ items tear found free, outline = .map items tear ∧
      readMembers (read schemas fuel shape) Value.insert items [] = .ok found ∧
      readMembers Value.ofOutline Value.insert (items.filter fun item => isExtension item.1) [] = .ok free ∧
      tree = .obj (found ++ free) := by
  cases outline with
  | map items tear =>
      simp only [read] at h
      split at h
      · cases h
      · cases hfound : readMembers (read schemas fuel shape) Value.insert items [] with
        | error fault => rw [hfound] at h; cases h
        | ok found =>
            cases hfree : readMembers Value.ofOutline Value.insert (items.filter fun item => isExtension item.1) [] with
            | error fault => rw [hfound, hfree] at h; cases h
            | ok free =>
                rw [hfound, hfree] at h
                cases h
                exact ⟨items, tear, found, free, rfl, hfound, hfree, rfl⟩
  | _ => simp [read, mismatch, wrong] at h

section Fields

variable {read : Shape → Outline → Except Fault Value} {rest members : List (String × Outline)} {item : Outline}
  {given : List (String × Option Value)} {extensions : List (String × Value)} {name : String}
  {result : List (String × Option Value) × List (String × Value)}

/-- How one member of an object is read: a known field is new and is read in its shape, unless it is `null` and may be;
any other member changes no field. -/
theorem readFields_cons (h : readFields read fields ((name, item) :: rest) given extensions = .ok result) :
    (∃ presence shape found, fields.lookup name = some (presence, shape) ∧ given.lookup name = none ∧
      (found = none → presence ≠ .required) ∧ (∀ value, found = some value → read shape item = .ok value) ∧
      readFields read fields rest ((name, found) :: given) extensions = .ok result) ∨
    (fields.lookup name = none ∧ ∃ more, readFields read fields rest given more = .ok result) := by
  rw [readFields] at h
  split at h
  · next presence shape hfield =>
    split at h
    · cases h
    next hgiven =>
    have hnew : given.lookup name = none := Option.not_isSome_iff_eq_none.mp hgiven
    split at h
    · exact Or.inl ⟨_, shape, none, hfield, hnew, by simp, by simp, h⟩
    · exact Or.inl ⟨_, shape, none, hfield, hnew, by simp, by simp, h⟩
    · exact Or.inl ⟨_, shape, none, hfield, hnew, by simp, by simp, h⟩
    · cases hread : read shape item with
      | error fault => rw [hread] at h; cases h
      | ok value =>
          rw [hread] at h
          refine Or.inl ⟨presence, shape, some value, hfield, hnew, by simp, fun other heq => ?_, h⟩
          rw [hread, Option.some.inj heq]
  · next hfield =>
    cases hvalue : Value.ofOutline item with
    | error fault => rw [hvalue] at h; cases h
    | ok value =>
        rw [hvalue] at h
        exact Or.inr ⟨hfield, _, h⟩

/-- A field that was read stays. -/
theorem lookup_readFields {found : Option Value} (h : readFields read fields members given extensions = .ok result)
    (hgiven : given.lookup key = some found) : result.1.lookup key = some found := by
  induction members generalizing given extensions with
  | nil =>
      cases h
      exact hgiven
  | cons member rest ih =>
      obtain ⟨_, _, _, -, hnew, -, -, hrest⟩ | ⟨-, more, hrest⟩ := readFields_cons h
      · have hne : key ≠ member.1 := by
          rintro rfl
          rw [hnew] at hgiven
          cases hgiven
        refine ih hrest ?_
        rw [List.lookup_cons, beq_eq_false_iff_ne.mpr hne]
        exact hgiven
      · exact ih hrest hgiven

/-- A required field that was read is the first member of its key, read in its shape. -/
theorem readFields_required {found : Option Value}
    (h : readFields read fields members given extensions = .ok result)
    (hfield : fields.lookup key = some (.required, shape)) (hnew : given.lookup key = none)
    (hfound : result.1.lookup key = some found) :
    ∃ item value, members.lookup key = some item ∧ read shape item = .ok value ∧ found = some value := by
  induction members generalizing given extensions with
  | nil =>
      cases h
      rw [hnew] at hfound
      cases hfound
  | cons member rest ih =>
      obtain ⟨name, item⟩ := member
      by_cases heq : key = name
      · subst heq
        obtain ⟨presence, other, first, hknown, -, hnull, hread, hrest⟩ | ⟨hunknown, -⟩ := readFields_cons h
        · obtain ⟨rfl, rfl⟩ := Prod.mk.inj (Option.some.inj (hknown.symm.trans hfield))
          have hkept := lookup_readFields hrest List.lookup_cons_self
          rw [hfound] at hkept
          cases hkept
          cases found with
          | none => exact absurd rfl (hnull rfl)
          | some value => exact ⟨item, value, List.lookup_cons_self, hread value rfl, rfl⟩
        · rw [hfield] at hunknown
          cases hunknown
      · have hskip : ((name, item) :: rest).lookup key = rest.lookup key := by
          rw [List.lookup_cons, beq_eq_false_iff_ne.mpr heq]
        rw [hskip]
        obtain ⟨_, _, first, -, -, -, -, hrest⟩ | ⟨-, more, hrest⟩ := readFields_cons h
        · refine ih hrest ?_
          rw [List.lookup_cons, beq_eq_false_iff_ne.mpr heq]
          exact hnew
        · exact ih hrest hnew

/-- A field is written under its own key. -/
theorem lookup_writeField {presence : Presence} {own : List (String × Value)}
    (h : writeField given name presence = .ok own) (hkey : key ≠ name) : own.lookup key = none := by
  have hkeys : ∀ member ∈ own, member.1 = name := by
    unfold writeField at h
    split at h <;> (try split_ifs at h) <;> cases h <;> simp
  rw [List.lookup_eq_none_iff]
  intro member hmember
  rw [hkeys member hmember]
  exact bne_iff_ne.mpr hkey

/-- The parts of what is written, field by field. -/
theorem writeFields_cons {presence : Presence} {written : List (String × Value)}
    (h : writeFields given ((name, presence, shape) :: fields) = .ok written) :
    ∃ own more, writeField given name presence = .ok own ∧ writeFields given fields = .ok more ∧
      written = own ++ more := by
  rw [writeFields] at h
  cases hown : writeField given name presence with
  | error fault => rw [hown] at h; cases h
  | ok own =>
      cases hmore : writeFields given fields with
      | error fault => rw [hown, hmore] at h; cases h
      | ok more =>
          rw [hown, hmore] at h
          cases h
          exact ⟨own, more, rfl, rfl, rfl⟩

theorem lookup_writeFields_of_not_mem {written : List (String × Value)} (h : writeFields given fields = .ok written)
    (hkey : key ∉ fields.map Prod.fst) : written.lookup key = none := by
  induction fields generalizing written with
  | nil =>
      cases h
      rfl
  | cons field rest ih =>
      obtain ⟨own, more, hown, hmore, rfl⟩ := writeFields_cons h
      rw [List.map_cons, List.mem_cons, not_or] at hkey
      rw [List.lookup_append, lookup_writeField hown hkey.1, Option.none_or, ih hmore hkey.2]

/-- What is written under the key of a field is that field, if no other field has the key. -/
theorem lookup_writeFields {presence : Presence} {before after : List (String × Presence × Shape)}
    {written : List (String × Value)}
    (h : writeFields given (before ++ (key, presence, shape) :: after) = .ok written)
    (hbefore : key ∉ before.map Prod.fst) (hafter : key ∉ after.map Prod.fst) :
    ∃ own, writeField given key presence = .ok own ∧ written.lookup key = own.lookup key := by
  induction before generalizing written with
  | nil =>
      obtain ⟨own, more, hown, hmore, rfl⟩ := writeFields_cons h
      refine ⟨own, hown, ?_⟩
      rw [List.lookup_append, lookup_writeFields_of_not_mem hmore hafter, Option.or_none]
  | cons field rest ih =>
      obtain ⟨own, more, hown, hmore, rfl⟩ := writeFields_cons h
      rw [List.map_cons, List.mem_cons, not_or] at hbefore
      rw [List.lookup_append, lookup_writeField hown hbefore.1, Option.none_or]
      exact ih hmore hbefore.2

end Fields

/-- A required field of an object is read from the member of its key, and is what the tree has under that key. -/
theorem read_required (key : String) (before : List (String × Presence × Shape))
    {after : List (String × Presence × Shape)}
    (h : read schemas (fuel + 1) (.object (before ++ (key, .required, shape) :: after) []) outline = .ok tree)
    (hbefore : key ∉ before.map Prod.fst) (hafter : key ∉ after.map Prod.fst) :
    ∃ members item value, outline = .map members none ∧ members.lookup key = some item ∧
      read schemas fuel shape item = .ok value ∧ member? key tree = some value := by
  obtain ⟨members, given, extensions, written, more, rfl, hread, hwritten, -, rfl⟩ := read_object h
  obtain ⟨own, hown, hlookup⟩ := lookup_writeFields hwritten hbefore hafter
  have hfield : (before ++ (key, Presence.required, shape) :: after ++ []).lookup key = some (.required, shape) := by
    have hnone : before.lookup key = none := by
      rw [← Option.not_isSome_iff_eq_none, ← mem_keys_iff_isSome]
      exact hbefore
    rw [List.append_nil, List.lookup_append, hnone, List.lookup_cons_self, Option.none_or]
  cases hgiven : given.lookup key with
  | none =>
      simp only [writeField, hgiven] at hown
      cases hown
  | some found =>
      obtain ⟨item, value, hitem, hvalue, rfl⟩ := readFields_required hread hfield rfl hgiven
      simp only [writeField, hgiven] at hown
      cases hown
      refine ⟨members, item, value, rfl, hitem, hvalue, ?_⟩
      rw [member?, List.append_assoc, List.lookup_append, hlookup, List.lookup_cons_self, Option.some_or]

theorem mem_keys_readMembers {read : Outline → Except Fault Value} {items : List (String × Outline)}
    {members found : List (String × Value)} (h : readMembers read Value.insert items members = .ok found) :
    key ∈ found.map Prod.fst ↔ key ∈ members.map Prod.fst ∨ key ∈ items.map Prod.fst := by
  induction items generalizing members with
  | nil =>
      cases h
      simp
  | cons item rest ih =>
      obtain ⟨name, outline⟩ := item
      rw [readMembers] at h
      cases hvalue : read outline with
      | error fault => rw [hvalue] at h; cases h
      | ok value =>
          rw [hvalue] at h
          have hinsert : key ∈ (Value.insert name value members).map Prod.fst ↔
              key = name ∨ key ∈ members.map Prod.fst := by
            rw [mem_keys_iff_isSome, mem_keys_iff_isSome, Value.lookup_insert]
            split_ifs with heq <;> simp [heq]
          rw [ih h, hinsert, List.map_cons, List.mem_cons]
          tauto

end Shape

/-! ### Paths of a text -/

/-- The keys of the object under `paths` in a JSON text, in the order of the text. -/
def textPaths (text : String) : List String :=
  match (Outline.ofText text).1 with
  | .map members _ =>
    match members.lookup "paths" with
    | some (.map items _) => items.map Prod.fst
    | _ => []
  | _ => []

theorem read_of_parse (h : Document.parse text = .ok document) :
    Shape.read Grammar.schema Document.nesting Grammar.document (Outline.ofText text).1 = .ok document.tree := by
  simp only [Document.parse] at h
  cases hread : Shape.read Grammar.schema Document.nesting Grammar.document (Outline.ofText text).1 with
  | error fault => rw [hread] at h; cases h
  | ok tree =>
      rw [hread] at h
      simp only [bind, Except.bind] at h
      split at h
      · cases h
      · cases h
        rfl

/-- The paths of a document that is read from a text are those of the text. -/
theorem mem_paths_iff (h : Document.parse text = .ok document) :
    path ∈ document.paths.entries.map Prod.fst ↔ path ∈ textPaths text := by
  obtain ⟨members, item, value, houtline, hitem, hvalue, htree⟩ := Shape.read_required "paths"
    [Grammar.need "openapi" .version, Grammar.need "info" Grammar.info, Grammar.may "servers" (.list Grammar.server)]
    (read_of_parse h) (by simp [Grammar.need, Grammar.may]) (by simp [Grammar.may, Grammar.orEmpty])
  obtain ⟨items, tear, found, free, rfl, hfound, hfree, rfl⟩ := Shape.read_entries hvalue
  have htext : textPaths text = items.map Prod.fst := by
    rw [textPaths, houtline]
    simp only [hitem]
  rw [mem_paths_iff_isSome, itemAt?, htree, Option.bind_some, member?, ← mem_keys_iff_isSome, List.map_append,
    List.mem_append, Shape.mem_keys_readMembers hfound, Shape.mem_keys_readMembers hfree, htext]
  -- The extension keys that are written once more are keys of the text too.
  have hextension : path ∈ (items.filter fun item => Shape.isExtension item.1).map Prod.fst →
      path ∈ items.map Prod.fst := fun hmem => (List.filter_sublist.map Prod.fst).subset hmem
  simp only [List.map_nil, List.not_mem_nil, false_or]
  exact ⟨fun hmem => hmem.elim id hextension, Or.inl⟩

end OpenApi

end RouteBook
