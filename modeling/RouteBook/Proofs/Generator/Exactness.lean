import RouteBook.Proofs.Generator.Regeneration
import RouteBook.Proofs.Text.Lookup

/-! What a walk for input files finds. It finds the files below its path that are named like input files, each once and
in the order of their components, whatever the order in which directories report their entries. A directory counts as
one only as long as its path is not too long: beyond that it is not entered, and is found itself if it is named like an
input file. -/

namespace RouteBook

/-- The order of paths by their components, byte by byte. -/
def Path.Precedes (a b : Path) : Prop := a.components.map Component.text < b.components.map Component.text

instance : Std.Asymm Path.Precedes := ⟨fun _ _ h => List.lt_asymm h⟩

namespace Generator

open FileTree

variable {tree other : FileTree} {path file : Path} {loc : Location} {name : Name} {entry : Entry} {depth : Nat}

/-! ### What is found -/

/-- Something, then the ending of input files. -/
def IsInputName (name : Name) : Prop := ∃ stem, stem ≠ [] ∧ name = stem ++ utf8 ".json"

/-- A walk does not go on from an entry that is no directory, or whose path is too long. -/
def EndsAt (path : Path) (entry : Entry) : Prop := entry ≠ .dir ∨ pathLimit ≤ path.length

theorem not_endsAt_iff : ¬EndsAt path entry ↔ entry = .dir ∧ path.length < pathLimit := by
  rw [EndsAt, not_or, not_not, not_le]

/-- The path of something below a path, through directories that a walk can enter, where the walk ends and which is
named like an input file. -/
def Finds (tree : FileTree) (path : Path) (loc : Location) (file : Path) : Prop :=
  ∃ names name entry, tree.get? (loc ++ names ++ [name]) = some entry ∧ IsInputName name ∧
    file = (names.foldl Path.join path).join name ∧ (names.foldl Path.join path).length < pathLimit ∧ EndsAt file entry

/-- What is found in a directory is an entry of it, or is found in an entry that the walk goes on from. -/
theorem finds_iff (hproper : tree.Proper) (hshort : path.length < pathLimit) :
    Finds tree path loc file ↔ ∃ name entry, tree.get? (loc ++ [name]) = some entry ∧
      (EndsAt (path.join name) entry ∧ file = path.join name ∧ IsInputName name ∨
        ¬EndsAt (path.join name) entry ∧ Finds tree (path.join name) (loc ++ [name]) file) := by
  constructor
  · rintro ⟨names, name, entry, hentry, hname, rfl, hway, hend⟩
    cases names with
    | nil =>
        rw [List.append_nil] at hentry
        exact ⟨name, entry, hentry, Or.inl ⟨hend, rfl, hname⟩⟩
    | cons first names =>
        rw [List.append_cons loc first names] at hentry
        have hfirst : tree.get? (loc ++ [first]) = some .dir := by
          rw [List.append_assoc] at hentry
          exact hproper.get?_append (by simp) hentry
        have hlength : (path.join first).length ≤ (names.foldl Path.join (path.join first)).length :=
          length_le_foldl_join hproper (hproper.stands_of_get? hentry).1
        have hopen : ¬EndsAt (path.join first) .dir := not_endsAt_iff.mpr ⟨rfl, hlength.trans_lt hway⟩
        exact ⟨first, .dir, hfirst, Or.inr ⟨hopen, names, name, entry, hentry, hname, rfl, hway, hend⟩⟩
  · rintro ⟨name, entry, hentry, ⟨hend, rfl, hname⟩ | ⟨-, names, last, found, hfound, hlast, hfile, hway, hend⟩⟩
    · exact ⟨[], name, entry, by rwa [List.append_nil], hname, rfl, hshort, hend⟩
    · refine ⟨name :: names, last, found, ?_, hlast, hfile, hway, hend⟩
      rwa [List.append_cons loc name names]

/-- An entry where a walk ends is found if it is named like an input file. -/
theorem mem_filesWithin_of_endsAt (hproper : tree.Proper) (hclear : ∀ loc, tree.Clear loc)
    (hloc : tree.locate path = .ok loc) (hentry : tree.get? (loc ++ [name]) = some entry)
    (hend : EndsAt (path.join name) entry) :
    file ∈ filesWithin tree depth (path.join name) ↔ file = path.join name ∧ IsInputName name := by
  have hextension : (path.join name).extension? = some inputExtension ↔ IsInputName name := by
    rw [Path.extension?_join (hproper.stands_of_get? hentry).2.plain]
    exact Path.cutName_eq_some_iff (by decide)
  rw [filesWithin_of_not_dir (isDir_join hproper hclear hloc hentry hend), mem_inputFile_iff, hextension]

/-- A walk from a directory finds what is below it. -/
theorem mem_filesWithin_iff (hproper : tree.Proper) (hclear : ∀ loc, tree.Clear loc) (hloc : tree.locate path = .ok loc)
    (hdir : tree.get? loc = some .dir) (hdepth : pathLimit ≤ depth + path.length) :
    file ∈ filesWithin tree depth path ↔ Finds tree path loc file := by
  obtain ⟨slash, hreach, -⟩ := locate_eq_ok_iff.mp hloc
  -- Every level makes the path longer, so the walk ends everywhere before the depth is used up.
  induction depth generalizing path loc slash with
  | zero =>
      have hshort := hreach.short
      omega
  | succ depth ih =>
      have hstep : ∀ name entry, tree.get? (loc ++ [name]) = some entry →
          (file ∈ filesWithin tree depth (path.join name) ↔
            (EndsAt (path.join name) entry ∧ file = path.join name ∧ IsInputName name ∨
              ¬EndsAt (path.join name) entry ∧ Finds tree (path.join name) (loc ++ [name]) file)) := by
        intro name entry hentry
        by_cases hend : EndsAt (path.join name) entry
        · rw [mem_filesWithin_of_endsAt hproper hclear hloc hentry hend]
          simp only [hend, true_and, not_true, false_and, or_false]
        · obtain ⟨rfl, hlength⟩ := not_endsAt_iff.mp hend
          have hjoin := locate_join hproper hclear hloc hentry hlength
          obtain ⟨ending, hjoined, -⟩ := locate_eq_ok_iff.mp hjoin
          have hlonger := length_lt_join path (hproper.stands_of_get? hentry).2.plain
          rw [ih hjoin hentry (by omega) ending hjoined]
          simp only [hend, false_and, not_false_eq_true, true_and, false_or]
      rw [finds_iff hproper hreach.short, filesWithin_of_dir hloc hdir, List.mem_flatMap]
      simp only [List.mem_mergeSort, mem_names_iff]
      constructor
      · rintro ⟨name, ⟨entry, hentry⟩, hfile⟩
        exact ⟨name, entry, hentry, (hstep name entry hentry).mp hfile⟩
      · rintro ⟨name, entry, hentry, hfile⟩
        exact ⟨name, ⟨entry, hentry⟩, (hstep name entry hentry).mpr hfile⟩

/-! ### The order -/

/-- Names in one directory are distinct. -/
theorem nodup_names (hproper : tree.Proper) (loc : Location) : ((tree.children loc).map Prod.fst).Nodup := by
  rw [names_children]
  apply hproper.distinct.filterMap
  intro a b name ha hb
  rw [nameIn_eq_some_iff.mp ha, nameIn_eq_some_iff.mp hb]

theorem mem_children_iff {name : Name} {entry : Entry} (hproper : tree.Proper) :
    (name, entry) ∈ tree.children loc ↔ tree.get? (loc ++ [name]) = some entry := by
  rw [get?_append_singleton, lookup_eq_some_iff_mem (nodup_names hproper loc)]

/-- Names in one directory are sorted strictly, since each occurs once. -/
theorem pairwise_names (hproper : tree.Proper) (loc : Location) :
    (((tree.children loc).map Prod.fst).mergeSort bytesLe).Pairwise (· < ·) := by
  have hsorted := (List.mergeSort_perm ((tree.children loc).map Prod.fst) bytesLe).nodup_iff.mpr (nodup_names hproper loc)
  exact ((pairwise_mergeSort_bytesLe _).and hsorted).imp fun {a b} h => lt_of_bytesLe h.1 h.2

/-- The path of what is found goes on from the path of the walk. -/
theorem components_of_mem_filesWithin (hproper : tree.Proper) (h : file ∈ filesWithin tree depth path) :
    ∃ more, file.components = path.components ++ more := by
  refine filesWithin_induction (motive := fun path => ∃ more, file.components = path.components ++ more) h ?_ ?_
  · intro _
    exact ⟨[], (List.append_nil _).symm⟩
  · rintro path loc name entry hentry ⟨more, hmore⟩
    rw [Path.components_join (hproper.stands_of_get? hentry).2.plain, List.append_assoc] at hmore
    exact ⟨_, hmore⟩

/-- What is found below one name comes before what is found below a greater one. -/
theorem precedes_of_lt {first second : Name} {a b : Path} (hproper : tree.Proper) (hfirst : Path.Plain first)
    (hsecond : Path.Plain second) (hlt : first < second) (ha : a ∈ filesWithin tree depth (path.join first))
    (hb : b ∈ filesWithin tree depth (path.join second)) : a.Precedes b := by
  obtain ⟨moreA, hmoreA⟩ := components_of_mem_filesWithin hproper ha
  obtain ⟨moreB, hmoreB⟩ := components_of_mem_filesWithin hproper hb
  rw [Path.components_join hfirst, List.append_assoc, List.singleton_append] at hmoreA
  rw [Path.components_join hsecond, List.append_assoc, List.singleton_append] at hmoreB
  simp only [Path.Precedes, hmoreA, hmoreB, List.map_append, List.map_cons]
  exact List.append_left_lt (List.cons_lt_cons_iff.mpr (Or.inl hlt))

/-- A walk finds paths in their order. -/
theorem pairwise_filesWithin (hproper : tree.Proper) (depth : Nat) (path : Path) :
    (filesWithin tree depth path).Pairwise Path.Precedes := by
  have hself : ∀ start, (inputFile start).Pairwise Path.Precedes := by
    intro start
    unfold inputFile
    split_ifs <;> simp
  induction depth generalizing path with
  | zero => exact hself path
  | succ depth ih =>
      by_cases hdir : tree.isDir path = true
      · obtain ⟨loc, hloc, hget⟩ := isDir_iff.mp hdir
        have hplain : ∀ name ∈ ((tree.children loc).map Prod.fst).mergeSort bytesLe, Path.Plain name := by
          intro name hname
          rw [List.mem_mergeSort, mem_names_iff] at hname
          obtain ⟨entry, hentry⟩ := hname
          exact (hproper.stands_of_get? hentry).2.plain
        rw [filesWithin_of_dir hloc hget, List.pairwise_flatMap]
        constructor
        · intro name _
          exact ih (path.join name)
        · apply (pairwise_names hproper loc).imp_of_mem
          intro first second hfirst hsecond hlt a ha b hb
          exact precedes_of_lt hproper (hplain first hfirst) (hplain second hsecond) hlt ha hb
      · rw [filesWithin_of_not_dir (Bool.eq_false_of_not_eq_true hdir)]
        exact hself path

/-! ### Whole walks -/

/-- The same tree with its entries reported in another order. -/
structure Reordered (tree other : FileTree) : Prop where
  cwd : other.cwd = tree.cwd
  entries : other.entries.Perm tree.entries

namespace Reordered

theorem get? (h : Reordered tree other) (hproper : tree.Proper) (loc : Location) : other.get? loc = tree.get? loc := by
  rw [FileTree.get?, FileTree.get?, lookup_eq_of_perm hproper.distinct h.entries]

theorem proper (h : Reordered tree other) (hproper : tree.Proper) : other.Proper := by
  have hkeys := h.entries.map Prod.fst
  refine ⟨hkeys.nodup_iff.mpr hproper.distinct, fun loc hloc => ?_⟩
  obtain ⟨dir, name, rfl, hdir, hname⟩ := hproper.stands loc (hkeys.mem_iff.mp hloc)
  exact ⟨dir, name, rfl, (h.get? hproper dir).trans hdir, hname⟩

theorem linkFree (h : Reordered tree other) (hfree : tree.LinkFree) : other.LinkFree :=
  fun item hitem => hfree item (h.entries.mem_iff.mp hitem)

theorem locate (h : Reordered tree other) (hproper : tree.Proper) (hloc : tree.locate path = .ok loc) :
    other.locate path = .ok loc := by
  have hgrow : tree.Extends other := by
    refine ⟨h.cwd, fun {loc entry} hentry => ?_⟩
    rw [h.get? hproper, hentry, Option.map_some]
  exact locate_extends hgrow hloc

theorem finds_iff (h : Reordered tree other) (hproper : tree.Proper) :
    Finds other path loc file ↔ Finds tree path loc file := by
  simp only [Finds, h.get? hproper]

end Reordered

/-- If all directories below a path can be entered, files are found and nothing else. -/
theorem finds_iff_of_short (hproper : tree.Proper)
    (hshort : ∀ names, tree.get? (loc ++ names) = some .dir → (names.foldl Path.join path).length < pathLimit) :
    Finds tree path loc file ↔ ∃ names name entry, tree.get? (loc ++ names ++ [name]) = some entry ∧ entry ≠ .dir ∧
      IsInputName name ∧ file = (names.foldl Path.join path).join name := by
  constructor
  · rintro ⟨names, name, entry, hentry, hname, rfl, -, hend⟩
    refine ⟨names, name, entry, hentry, fun hdir => ?_, hname, rfl⟩
    subst hdir
    have hlength := hshort (names ++ [name]) (by rwa [← List.append_assoc])
    rw [List.foldl_append] at hlength
    exact not_endsAt_iff.mpr ⟨rfl, hlength⟩ hend
  · rintro ⟨names, name, entry, hentry, hne, hname, rfl⟩
    exact ⟨names, name, entry, hentry, hname, rfl, hshort names (hproper.stands_of_get? hentry).1, Or.inl hne⟩

/-- A walk from a directory does not fail. It finds the paths below that end in a file named like an input file, or in
a directory of such a name whose path is too long, through directories whose paths are not; in their order, each once,
and whatever order entries are reported in. Where no directory has a path that is too long these are all the files with
such a name. -/
theorem inputs_exact (hproper : tree.Proper) (hfree : tree.LinkFree) (hloc : tree.locate path = .ok loc)
    (hdir : tree.get? loc = some .dir) :
    ∃ found, inputs tree path = .ok found ∧ (∀ file, file ∈ found ↔ Finds tree path loc file) ∧
      found.Pairwise Path.Precedes ∧ found.Nodup ∧
      (∀ other, Reordered tree other → inputs other path = .ok found) ∧
      ((∀ names, tree.get? (loc ++ names) = some .dir → (names.foldl Path.join path).length < pathLimit) →
        ∀ file, file ∈ found ↔ ∃ names name entry, tree.get? (loc ++ names ++ [name]) = some entry ∧ entry ≠ .dir ∧
          IsInputName name ∧ file = (names.foldl Path.join path).join name) := by
  have hfound : ∀ file, file ∈ filesWithin tree pathLimit path ↔ Finds tree path loc file :=
    fun file => mem_filesWithin_iff hproper hfree.clear hloc hdir (Nat.le_add_right _ _)
  have hsorted := pairwise_filesWithin hproper pathLimit path
  refine ⟨filesWithin tree pathLimit path, inputsWithin_eq tree pathLimit path, hfound, hsorted, hsorted.nodup, ?_, ?_⟩
  · intro other h
    have hother := pairwise_filesWithin (h.proper hproper) pathLimit path
    have hsame : filesWithin other pathLimit path = filesWithin tree pathLimit path := by
      apply hother.eq_of_mem_iff hsorted
      intro file
      rw [hfound, ← h.finds_iff hproper]
      exact mem_filesWithin_iff (h.proper hproper) (h.linkFree hfree).clear (h.locate hproper hloc)
        ((h.get? hproper loc).trans hdir) (Nat.le_add_right _ _)
    rw [inputs, inputsWithin_eq, hsame]
  · intro hshort file
    rw [hfound, finds_iff_of_short hproper hshort]

/-- A directory that is named like an input file, and no file. -/
def lone : FileTree where
  entries := [([utf8 "in"], .dir), ([utf8 "in", utf8 "x.json"], .dir)]
  cwd := []

theorem lone_proper : lone.Proper := by decide

theorem lone_linkFree : lone.LinkFree := by decide

/-- The directory is found where the path of the walk makes its path too long. -/
theorem inputs_lone : lone.Proper ∧ lone.LinkFree ∧ lone.locate (slashed 4087) = .ok [utf8 "in"] ∧
    lone.get? [utf8 "in"] = some .dir ∧ lone.get? [utf8 "in", utf8 "x.json"] = some .dir ∧
    inputs lone (slashed 4087) = .ok [(slashed 4087).join (utf8 "x.json")] := by
  have hloc : lone.locate (slashed 4087) = .ok [utf8 "in"] := locate_slashed rfl rfl (by decide)
  have hdir : lone.get? [utf8 "in"] = some .dir := rfl
  have hentry : lone.get? ([utf8 "in"] ++ [utf8 "x.json"]) = some .dir := rfl
  have hname := (lone_proper.stands_of_get? hentry).2.plain
  have hlong : pathLimit ≤ ((slashed 4087).join (utf8 "x.json")).length := by
    have hlast : (utf8 "x.json").length = 6 := rfl
    rw [join_slashed 4087 hname.noSlash, List.length_append, length_slashed, hlast]
    decide
  have hextension : ((slashed 4087).join (utf8 "x.json")).extension? = some inputExtension := by
    rw [Path.extension?_join hname]
    decide
  have hchildren : ((lone.children [utf8 "in"]).map Prod.fst).mergeSort bytesLe = [utf8 "x.json"] := by cbv
  have hlimit : pathLimit = 4095 + 1 := rfl
  refine ⟨lone_proper, lone_linkFree, hloc, hdir, hentry, ?_⟩
  rw [inputs, inputsWithin_eq, hlimit, filesWithin_of_dir hloc hdir, hchildren, List.flatMap_singleton,
    filesWithin_of_not_dir (isDir_of_long hlong), inputFile, if_pos hextension]

/-- Files and directories with and without the ending of input files. -/
def mixed : FileTree where
  entries :=
    [([utf8 "in"], .dir), ([utf8 "in", utf8 "d.json"], .dir), ([utf8 "in", utf8 "d.json", utf8 "y.json"], .file []),
     ([utf8 "in", utf8 "a.json"], .file []), ([utf8 "in", utf8 "a"], .dir), ([utf8 "in", utf8 ".json"], .file []),
     ([utf8 "in", utf8 "a", utf8 "x.json"], .file []), ([utf8 "in", utf8 "a", utf8 "x.md"], .file [])]
  cwd := []

theorem mixed_proper : mixed.Proper := by decide

theorem mixed_linkFree : mixed.LinkFree := by decide

/-- The directory comes before the file whose name starts with its name, and another order of entries makes no
difference. -/
theorem inputs_exact_mixed : mixed.Proper ∧ mixed.LinkFree ∧ mixed.locate (utf8 "in") = .ok [utf8 "in"] ∧
    mixed.get? [utf8 "in"] = some .dir ∧
    inputs mixed (utf8 "in") = .ok [utf8 "in/a/x.json", utf8 "in/a.json", utf8 "in/d.json/y.json"] ∧
    [utf8 "in/a/x.json", utf8 "in/a.json", utf8 "in/d.json/y.json"].Pairwise Path.Precedes ∧
    inputs ⟨mixed.entries.reverse, []⟩ (utf8 "in") =
      .ok [utf8 "in/a/x.json", utf8 "in/a.json", utf8 "in/d.json/y.json"] := by
  have hloc : mixed.locate (utf8 "in") = .ok [utf8 "in"] := by cbv
  have hinputs : inputs mixed (utf8 "in") = .ok [utf8 "in/a/x.json", utf8 "in/a.json", utf8 "in/d.json/y.json"] := by cbv
  obtain ⟨found, hfound, -, hsorted, -, hreordered, -⟩ := inputs_exact mixed_proper mixed_linkFree hloc rfl
  cases hfound.symm.trans hinputs
  exact ⟨mixed_proper, mixed_linkFree, hloc, rfl, hinputs, hsorted,
    hreordered ⟨mixed.entries.reverse, []⟩ ⟨rfl, List.reverse_perm _⟩⟩

end Generator

end RouteBook
