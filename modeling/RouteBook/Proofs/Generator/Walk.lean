import RouteBook.Proofs.FileTree.Proper
import RouteBook.Proofs.Generator.Targets
import RouteBook.Proofs.Text.Order

/-! Walks for input files in a tree that grew. A walk goes through every directory below its path as long as the path
of the directory is not too long; one that is too long counts as a file, by its name. So a walk finds in the grown tree
what it found before if no new file is named like an input file and no directory named like one is too far below; and
if there is such a directory, its path is among the files. -/

namespace RouteBook.Generator

open FileTree

variable {tree left : FileTree} {path : Path} {loc : Location} {name : Name} {depth : Nat}

/-! ### The files of a walk -/

/-- The input files that a walk finds; a walk never fails. -/
def filesWithin (tree : FileTree) : Nat → Path → List Path
  | 0, path => inputFile path
  | depth + 1, path =>
    match tree.readDir path with
    | .ok entries => (sortedEntries path entries).flatMap (filesWithin tree depth)
    | .error _ => inputFile path

theorem mem_inputFile_iff {file : Path} :
    file ∈ inputFile path ↔ file = path ∧ path.extension? = some inputExtension := by
  unfold inputFile
  split_ifs with hextension <;> simp [hextension]

theorem readDir_of_dir (hloc : tree.locate path = .ok loc) (hdir : tree.get? loc = some .dir) :
    tree.readDir path = .ok (tree.children loc) := by
  rw [readDir, hloc]
  exact if_pos hdir

theorem readDir_of_not_dir (h : tree.isDir path = false) : ∃ e, tree.readDir path = .error e := by
  cases hloc : tree.locate path with
  | error e =>
      rw [readDir, hloc]
      exact ⟨e, rfl⟩
  | ok loc =>
      rw [readDir, hloc]
      have hdir : tree.get? loc ≠ some .dir := by
        intro hdir
        rw [isDir_iff.mpr ⟨loc, hloc, hdir⟩] at h
        cases h
      exact ⟨_, if_neg hdir⟩

theorem filesWithin_of_not_dir (h : tree.isDir path = false) (depth : Nat) :
    filesWithin tree depth path = inputFile path := by
  cases depth with
  | zero => rfl
  | succ depth =>
      obtain ⟨e, hread⟩ := readDir_of_not_dir h
      rw [filesWithin, hread]

theorem filesWithin_of_dir (hloc : tree.locate path = .ok loc) (hdir : tree.get? loc = some .dir) :
    filesWithin tree (depth + 1) path =
      (((tree.children loc).map Prod.fst).mergeSort bytesLe).flatMap
        fun name => filesWithin tree depth (path.join name) := by
  rw [filesWithin, readDir_of_dir hloc hdir]
  simp only [sortedEntries, List.flatMap_map]

theorem inputsWithin_eq (tree : FileTree) (depth : Nat) (path : Path) :
    inputsWithin tree depth path = .ok (filesWithin tree depth path) := by
  induction depth generalizing path with
  | zero => rfl
  | succ depth ih =>
      have hnext : inputsWithin tree depth = fun path => pure (filesWithin tree depth path) := funext ih
      rw [inputsWithin]
      split_ifs with hdir
      · obtain ⟨loc, hloc, hget⟩ := isDir_iff.mp hdir
        rw [filesWithin, readDir_of_dir hloc hget]
        simp only [hnext, List.mapM_pure]
        rfl
      · rw [filesWithin_of_not_dir (Bool.eq_false_of_not_eq_true hdir)]

/-! ### Names in a directory -/

/-- The name of a location directly in another. -/
def nameIn (loc other : Location) : Option Name :=
  match Text.after? loc other with
  | some [name] => some name
  | _ => none

theorem nameIn_eq_some_iff {other : Location} : nameIn loc other = some name ↔ other = loc ++ [name] := by
  rw [← Text.after?_eq_some_iff, nameIn]
  split
  · next found hafter => simp [hafter]
  · next hafter => simpa using fun h => hafter name h

theorem names_children (tree : FileTree) (loc : Location) :
    (tree.children loc).map Prod.fst = (tree.entries.map Prod.fst).filterMap (nameIn loc) := by
  rw [children, List.map_filterMap, List.filterMap_map]
  refine List.filterMap_congr fun item _ => ?_
  dsimp only [Function.comp, nameIn]
  generalize Text.after? loc item.1 = names
  rcases names with _ | _ | ⟨name, _ | ⟨next, more⟩⟩ <;> rfl

theorem mem_names_iff : name ∈ (tree.children loc).map Prod.fst ↔ ∃ entry, tree.get? (loc ++ [name]) = some entry := by
  rw [names_children, List.mem_filterMap, ← mem_keys_iff (by simp)]
  simp only [nameIn_eq_some_iff]
  constructor
  · rintro ⟨other, hmem, rfl⟩
    exact hmem
  · intro hmem
    exact ⟨_, hmem, rfl⟩

/-- How a walk finds a file: the path of the walk is the file, or the file is found by the name of an entry. -/
theorem filesWithin_induction {motive : Path → Prop} {file : Path} (h : file ∈ filesWithin tree depth path)
    (self : file.extension? = some inputExtension → motive file)
    (below : ∀ path loc name entry, tree.get? (loc ++ [name]) = some entry → motive (path.join name) → motive path) :
    motive path := by
  have hself : ∀ start, file ∈ inputFile start → motive start := by
    intro start hfile
    obtain ⟨rfl, hextension⟩ := mem_inputFile_iff.mp hfile
    exact self hextension
  induction depth generalizing path with
  | zero => exact hself path h
  | succ depth ih =>
      by_cases hdir : tree.isDir path = true
      · obtain ⟨loc, hloc, hget⟩ := isDir_iff.mp hdir
        rw [filesWithin_of_dir hloc hget, List.mem_flatMap] at h
        obtain ⟨name, hname, hfile⟩ := h
        rw [List.mem_mergeSort, mem_names_iff] at hname
        obtain ⟨entry, hentry⟩ := hname
        exact below path loc name entry hentry (ih hfile)
      · rw [filesWithin_of_not_dir (Bool.eq_false_of_not_eq_true hdir)] at h
        exact hself path h

/-- Every file of a walk has the extension of input files. -/
theorem extension?_of_mem_filesWithin {file : Path} (h : file ∈ filesWithin tree depth path) :
    file.extension? = some inputExtension :=
  filesWithin_induction (motive := fun _ => file.extension? = some inputExtension) h id fun _ _ _ _ _ hbelow => hbelow

/-- An entry that is not a directory is not taken for one, and neither is one whose path is too long. -/
theorem isDir_join {entry : Entry} (hproper : tree.Proper) (hclear : ∀ loc, tree.Clear loc)
    (hloc : tree.locate path = .ok loc) (hentry : tree.get? (loc ++ [name]) = some entry)
    (hend : entry ≠ .dir ∨ pathLimit ≤ (path.join name).length) : tree.isDir (path.join name) = false := by
  by_cases hlong : pathLimit ≤ (path.join name).length
  · exact isDir_of_long hlong
  · have hjoin := locate_join hproper hclear hloc hentry (not_le.mp hlong)
    refine isDir_of_locate hjoin fun hdir => ?_
    exact hend.resolve_right hlong (Option.some.inj (hentry.symm.trans hdir))

/-- Items that give nothing may be left out. -/
theorem flatMap_filter_of_nil {α β : Type} {p : α → Bool} {f : α → List β} {items : List α}
    (h : ∀ item ∈ items, p item = false → f item = []) : (items.filter p).flatMap f = items.flatMap f := by
  induction items with
  | nil => rfl
  | cons item items ih =>
      have hrest := ih fun other hother => h other (List.mem_cons_of_mem item hother)
      cases hp : p item with
      | true => rw [List.filter_cons_of_pos hp, List.flatMap_cons, List.flatMap_cons, hrest]
      | false =>
          rw [List.filter_cons_of_neg (by simp [hp]), List.flatMap_cons, h item List.mem_cons_self hp, hrest,
            List.nil_append]

/-! ### Growing trees -/

/-- A tree grew by directories, and by files that are not named like input files. -/
structure Regrown (tree left : FileTree) : Prop where
  proper : tree.Proper
  clear : ∀ loc, tree.Clear loc
  built : Built tree left
  grown : tree.Extends left
  fresh : ∀ loc name entry, tree.get? (loc ++ [name]) = none → left.get? (loc ++ [name]) = some entry →
    entry ≠ .dir → (Path.cutName name).2 ≠ some inputExtension

/-- Below a path stands a directory that is named like an input file, with a path that is too long. -/
def Overlong (tree : FileTree) (path : Path) : Prop :=
  ∃ loc names name, tree.locate path = .ok loc ∧ tree.get? (loc ++ names ++ [name]) = some .dir ∧
    ((names.foldl Path.join path).join name).extension? = some inputExtension ∧
    (names.foldl Path.join path).length < pathLimit ∧ pathLimit ≤ ((names.foldl Path.join path).join name).length

theorem Overlong.of_join (h : Overlong tree (path.join name)) (hloc : tree.locate path = .ok loc)
    (hjoin : tree.locate (path.join name) = .ok (loc ++ [name])) : Overlong tree path := by
  obtain ⟨found, names, last, hfound, hget, hrest⟩ := h
  obtain rfl : loc ++ [name] = found := Except.ok.inj (hjoin.symm.trans hfound)
  refine ⟨loc, name :: names, last, hloc, ?_, hrest⟩
  rwa [List.append_assoc, List.append_assoc, List.singleton_append, ← List.cons_append, ← List.append_assoc] at hget

namespace Regrown

theorem proper_left (h : Regrown tree left) : left.Proper := h.built.proper h.proper

theorem clear_left (h : Regrown tree left) : ∀ loc, left.Clear loc := h.built.clear h.clear

/-- New names come after the ones that were there. -/
theorem names_left (h : Regrown tree left) (loc : Location) :
    ∃ more, (left.children loc).map Prod.fst = (tree.children loc).map Prod.fst ++ more ∧
      ∀ name ∈ more, name ∉ (tree.children loc).map Prod.fst := by
  obtain ⟨more, hmore⟩ := h.built.keys
  refine ⟨more.filterMap (nameIn loc), ?_, fun name hname hold => ?_⟩
  · rw [names_children, names_children, ← hmore, List.filterMap_append]
  · obtain ⟨other, hother, heq⟩ := List.mem_filterMap.mp hname
    rw [nameIn_eq_some_iff] at heq
    rw [mem_names_iff, ← mem_keys_iff (by simp), ← heq] at hold
    have hdistinct := h.proper_left.distinct
    rw [← hmore, List.nodup_append] at hdistinct
    exact hdistinct.2.2 other hold other hother rfl

/-- A file that is new gives nothing, and neither does a directory whose path is too long. -/
theorem inputFile_fresh (h : Regrown tree left) {entry : Entry} (hover : ¬Overlong left path)
    (hloc : left.locate path = .ok loc) (hnone : tree.get? (loc ++ [name]) = none)
    (hentry : left.get? (loc ++ [name]) = some entry)
    (hend : entry ≠ .dir ∨ pathLimit ≤ (path.join name).length) : inputFile (path.join name) = [] := by
  obtain ⟨slash, hreach, -⟩ := locate_eq_ok_iff.mp hloc
  have hname := (h.proper_left.stands_of_get? hentry).2.plain
  refine if_neg fun hextension => ?_
  by_cases hdir : entry = .dir
  · subst hdir
    have hlong := hend.resolve_left (by simp)
    exact hover ⟨loc, [], name, hloc, by rwa [List.append_nil], hextension, hreach.short, hlong⟩
  · exact h.fresh loc name entry hnone hentry hdir (by rwa [← Path.extension?_join hname])

/-- An entry that is new gives no input files, also if it is a directory. -/
theorem filesWithin_fresh (h : Regrown tree left) {entry : Entry} (hover : ¬Overlong left path)
    (hloc : left.locate path = .ok loc) (hnone : tree.get? (loc ++ [name]) = none)
    (hentry : left.get? (loc ++ [name]) = some entry) (hdepth : pathLimit ≤ depth + (path.join name).length) :
    filesWithin left depth (path.join name) = [] := by
  -- Every level makes the path longer, so the depth is used up only where the path is too long.
  induction depth generalizing path loc name entry with
  | zero =>
      have hend : entry ≠ .dir ∨ pathLimit ≤ (path.join name).length := Or.inr (by omega)
      exact h.inputFile_fresh hover hloc hnone hentry hend
  | succ depth ih =>
      by_cases hend : entry ≠ .dir ∨ pathLimit ≤ (path.join name).length
      · rw [filesWithin_of_not_dir (isDir_join h.proper_left h.clear_left hloc hentry hend)]
        exact h.inputFile_fresh hover hloc hnone hentry hend
      · rw [not_or, not_not, not_le] at hend
        obtain ⟨rfl, hshort⟩ := hend
        have hjoin := locate_join h.proper_left h.clear_left hloc hentry hshort
        rw [filesWithin_of_dir hjoin hentry, List.flatMap_eq_nil_iff]
        intro next hnext
        rw [List.mem_mergeSort, mem_names_iff] at hnext
        obtain ⟨inner, hinner⟩ := hnext
        have hlength := length_lt_join (path.join name) (h.proper_left.stands_of_get? hinner).2.plain
        refine ih (fun hbelow => hover (hbelow.of_join hloc hjoin)) hjoin ?_ hinner (by omega)
        by_contra hsome
        obtain ⟨old, hold⟩ := Option.ne_none_iff_exists'.mp hsome
        rw [(h.proper.stands_of_get? hold).1] at hnone
        cases hnone

/-- What a path led to is a directory only if it was one before. -/
theorem isDir_left (h : Regrown tree left) (hloc : tree.locate path = .ok loc) (hdir : tree.get? loc ≠ some .dir) :
    left.isDir path = false := by
  obtain ⟨slash, hreach, -⟩ := locate_eq_ok_iff.mp hloc
  obtain ⟨entry, hentry⟩ := hreach.leads.exists_entry h.proper h.clear hreach.start_dir
  obtain ⟨other, hother, houtline⟩ := h.grown.exists_outline hentry
  refine isDir_of_locate (locate_extends h.grown hloc) fun hget => ?_
  obtain rfl : other = .dir := Option.some.inj (hother.symm.trans hget)
  exact hdir (by rw [hentry, Entry.outline_eq_dir houtline.symm])

/-- A walk finds the same files as before. -/
theorem filesWithin_eq (h : Regrown tree left) (hover : ¬Overlong left path) (hloc : tree.locate path = .ok loc)
    (hdepth : pathLimit ≤ depth + path.length) : filesWithin left depth path = filesWithin tree depth path := by
  induction depth generalizing path loc with
  | zero => rfl
  | succ depth ih =>
      by_cases hdir : tree.get? loc = some .dir
      · have hlocLeft := locate_extends h.grown hloc
        obtain ⟨more, hnames, hmore⟩ := h.names_left loc
        rw [filesWithin_of_dir hloc hdir, filesWithin_of_dir hlocLeft (h.grown.dir hdir)]
        have hnew : ∀ name ∈ ((left.children loc).map Prod.fst).mergeSort bytesLe,
            decide (name ∈ (tree.children loc).map Prod.fst) = false → filesWithin left depth (path.join name) = [] := by
          intro name hname hold
          rw [List.mem_mergeSort, mem_names_iff] at hname
          rw [decide_eq_false_iff_not, mem_names_iff, not_exists] at hold
          obtain ⟨entry, hentry⟩ := hname
          have hlength := length_lt_join path (h.proper_left.stands_of_get? hentry).2.plain
          exact h.filesWithin_fresh hover hlocLeft (Option.eq_none_iff_forall_ne_some.mpr hold) hentry (by omega)
        rw [← flatMap_filter_of_nil hnew, hnames, filter_mergeSort_append hmore]
        refine List.flatMap_congr fun name hname => ?_
        rw [List.mem_mergeSort, mem_names_iff] at hname
        obtain ⟨entry, hentry⟩ := hname
        by_cases hlong : pathLimit ≤ (path.join name).length
        · rw [filesWithin_of_not_dir (isDir_of_long hlong), filesWithin_of_not_dir (isDir_of_long hlong)]
        · have hjoin := locate_join h.proper h.clear hloc hentry (not_le.mp hlong)
          have hlength := length_lt_join path (h.proper.stands_of_get? hentry).2.plain
          exact ih (fun hbelow => hover (hbelow.of_join hlocLeft (locate_extends h.grown hjoin))) hjoin (by omega)
      · rw [filesWithin_of_not_dir (h.isDir_left hloc hdir), filesWithin_of_not_dir (isDir_of_locate hloc hdir)]

end Regrown

/-- The path of what stands below a path is no shorter. -/
theorem length_le_foldl_join {names : List Name} {entry : Entry} (hproper : tree.Proper)
    (hentry : tree.get? (loc ++ names) = some entry) : path.length ≤ (names.foldl Path.join path).length := by
  induction names generalizing path loc with
  | nil => exact le_rfl
  | cons name names ih =>
      rw [← List.singleton_append, ← List.append_assoc] at hentry
      have hname : EntryName name := by
        by_cases hnil : names = []
        · rw [hnil, List.append_nil] at hentry
          exact (hproper.stands_of_get? hentry).2
        · exact (hproper.stands_of_get? (hproper.get?_append hnil hentry)).2
      exact (length_lt_join path hname.plain).le.trans (ih hentry)

/-- A directory that is named like an input file and is too far below is taken for one. -/
theorem Overlong.exists_file (h : Overlong tree path) (hproper : tree.Proper) (hclear : ∀ loc, tree.Clear loc)
    (hdepth : pathLimit ≤ depth + path.length) : ∃ file ∈ filesWithin tree depth path, pathLimit ≤ file.length := by
  obtain ⟨loc, names, name, hloc, hget, hextension, hshort, hlong⟩ := h
  induction names generalizing path loc depth with
  | nil =>
      rw [List.append_nil] at hget
      rw [List.foldl_nil] at hextension hshort hlong
      obtain ⟨depth, rfl⟩ : ∃ more, depth = more + 1 := ⟨depth - 1, by omega⟩
      have hfile : inputFile (path.join name) = [path.join name] := if_pos hextension
      refine ⟨path.join name, ?_, hlong⟩
      rw [filesWithin_of_dir hloc (hproper.stands_of_get? hget).1, List.mem_flatMap]
      refine ⟨name, List.mem_mergeSort.mpr (mem_names_iff.mpr ⟨_, hget⟩), ?_⟩
      rw [filesWithin_of_not_dir (isDir_of_long hlong), hfile]
      exact List.mem_singleton_self _
  | cons first names ih =>
      have hentry := (hproper.stands_of_get? hget).1
      rw [← List.singleton_append, ← List.append_assoc] at hget hentry
      have hfirst : tree.get? (loc ++ [first]) = some .dir := by
        rw [List.append_assoc] at hget
        exact hproper.get?_append (by simp) hget
      obtain ⟨hdir, hname⟩ := hproper.stands_of_get? hfirst
      have hjoin : (path.join first).length < pathLimit := (length_le_foldl_join hproper hentry).trans_lt hshort
      have hlength := length_lt_join path hname.plain
      obtain ⟨depth, rfl⟩ : ∃ more, depth = more + 1 := ⟨depth - 1, by omega⟩
      have hdeep : pathLimit ≤ depth + (path.join first).length := by omega
      obtain ⟨file, hmem, hfile⟩ := ih hdeep (loc ++ [first]) (locate_join hproper hclear hloc hfirst hjoin) hget
        hextension hshort hlong
      refine ⟨file, ?_, hfile⟩
      rw [filesWithin_of_dir hloc hdir, List.mem_flatMap]
      exact ⟨first, List.mem_mergeSort.mpr (mem_names_iff.mpr ⟨_, hfirst⟩), hmem⟩

end RouteBook.Generator
