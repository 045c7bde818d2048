import RouteBook.Proofs.FileTree.Directories

/-! Trees as file systems keep them: no location has two entries, and every entry stands in a directory under a name
that can stand there. What is built by putting entries into directories keeps that, adds its locations behind the ones
that were there, and puts no link on any way. Making directories and writing files builds in this sense, so all of it
holds of them; with removing, which keeps trees proper too, they make nothing but proper trees. -/

namespace RouteBook.FileTree

variable {tree middle left : FileTree} {loc dir : Location} {name : Name} {entry : Entry} {path : Path}

/-- A name that an entry of a directory can have. -/
structure EntryName (name : Name) : Prop where
  plain : Path.Plain name
  noZero : 0 ∉ name
  short : name.length ≤ nameLimit

instance (name : Name) : Decidable (EntryName name) :=
  decidable_of_iff ((name ≠ [] ∧ name ≠ Path.here ∧ name ≠ Path.above ∧ Path.slash ∉ name) ∧ 0 ∉ name ∧
      name.length ≤ nameLimit)
    ⟨fun ⟨⟨hnil, hhere, habove, hslash⟩, hzero, hshort⟩ => ⟨⟨hnil, hhere, habove, hslash⟩, hzero, hshort⟩,
      fun h => ⟨⟨h.plain.ne_nil, h.plain.ne_here, h.plain.ne_above, h.plain.noSlash⟩, h.noZero, h.short⟩⟩

theorem EntryName.enterable (h : EntryName name) : Enterable name :=
  ⟨h.plain.ne_nil, h.plain.ne_here, h.plain.ne_above, h.short⟩

/-- A tree as a file system keeps it. -/
structure Proper (tree : FileTree) : Prop where
  distinct : (tree.entries.map Prod.fst).Nodup
  stands : ∀ loc ∈ tree.entries.map Prod.fst,
    ∃ dir name, loc = dir ++ [name] ∧ tree.get? dir = some .dir ∧ EntryName name

/-- A tree is proper if its locations are, each with what stands around it. -/
theorem proper_iff : tree.Proper ↔ (tree.entries.map Prod.fst).Nodup ∧ ∀ loc ∈ tree.entries.map Prod.fst,
    loc ≠ [] ∧ tree.get? loc.dropLast = some .dir ∧ ∀ name ∈ loc.getLast?, EntryName name := by
  constructor
  · intro h
    refine ⟨h.distinct, fun loc hloc => ?_⟩
    obtain ⟨dir, name, rfl, hdir, hname⟩ := h.stands loc hloc
    simpa [hdir] using hname
  · rintro ⟨hdistinct, hstands⟩
    refine ⟨hdistinct, fun loc hloc => ?_⟩
    obtain ⟨hne, hdir, hname⟩ := hstands loc hloc
    exact ⟨loc.dropLast, loc.getLast hne, (List.dropLast_append_getLast hne).symm, hdir,
      hname _ (List.getLast?_eq_some_getLast hne)⟩

instance (tree : FileTree) : Decidable tree.Proper := decidable_of_iff _ proper_iff.symm

/-! ### Locations -/

theorem mem_keys_iff (hloc : loc ≠ []) : loc ∈ tree.entries.map Prod.fst ↔ ∃ entry, tree.get? loc = some entry := by
  rw [get?_of_ne_nil _ hloc, ← Option.isSome_iff_exists, ← not_iff_not, Option.not_isSome_iff_eq_none,
    List.lookup_eq_none_iff]
  grind

theorem keys_put (tree : FileTree) (loc : Location) (entry : Entry) :
    (tree.put loc entry).entries.map Prod.fst =
      if (tree.entries.lookup loc).isSome then tree.entries.map Prod.fst else tree.entries.map Prod.fst ++ [loc] := by
  unfold put
  split_ifs
  · rw [List.map_map]
    refine List.map_congr_left fun item _ => ?_
    dsimp only [Function.comp]
    split_ifs <;> rfl
  · rw [List.map_append]
    rfl

namespace Proper

theorem stands_of_get? (h : tree.Proper) (hentry : tree.get? (loc ++ [name]) = some entry) :
    tree.get? loc = some .dir ∧ EntryName name := by
  obtain ⟨dir, other, heq, hdir, hname⟩ := h.stands _ ((mem_keys_iff (by simp)).mpr ⟨entry, hentry⟩)
  obtain ⟨rfl, rfl⟩ := List.append_singleton_inj.mp heq
  exact ⟨hdir, hname⟩

/-- The location around a directory is a directory. -/
theorem dropLast (h : tree.Proper) (hentry : tree.get? loc = some entry) (hloc : loc ≠ []) :
    tree.get? loc.dropLast = some .dir := by
  obtain ⟨dir, name, rfl⟩ : ∃ dir name, loc = dir ++ [name] := (List.eq_nil_or_concat' loc).resolve_left hloc
  rw [List.dropLast_concat]
  exact (h.stands_of_get? hentry).1

/-- All locations on the way to an entry are directories. -/
theorem get?_append (h : tree.Proper) {names : List Name} (hnames : names ≠ [])
    (hentry : tree.get? (loc ++ names) = some entry) : tree.get? loc = some .dir := by
  induction names using List.reverseRecOn generalizing entry with
  | nil => exact absurd rfl hnames
  | append_singleton names name ih =>
      rw [← List.append_assoc] at hentry
      have hdir := (h.stands_of_get? hentry).1
      by_cases hnil : names = []
      · rwa [hnil, List.append_nil] at hdir
      · exact ih hnil hdir

/-- An entry put into a directory, in the place of one of the same outline if there is one, keeps a tree proper. -/
theorem put (h : tree.Proper) (hdir : tree.get? dir = some .dir) (hname : EntryName name)
    (hold : ∀ old, tree.get? (dir ++ [name]) = some old → old.outline = entry.outline) :
    (tree.put (dir ++ [name]) entry).Proper := by
  have hne : dir ++ [name] ≠ [] := by simp
  have hgrow : tree.Extends (tree.put (dir ++ [name]) entry) := extends_put hne hold
  have hkept : ∀ loc ∈ tree.entries.map Prod.fst, ∃ dir' name', loc = dir' ++ [name'] ∧
      (tree.put (dir ++ [name]) entry).get? dir' = some .dir ∧ EntryName name' := by
    intro loc hloc
    obtain ⟨dir', name', heq, hdir', hname'⟩ := h.stands loc hloc
    exact ⟨dir', name', heq, hgrow.dir hdir', hname'⟩
  have hkeys := tree.keys_put (dir ++ [name]) entry
  split_ifs at hkeys with hsome
  · exact ⟨hkeys ▸ h.distinct, hkeys ▸ hkept⟩
  · constructor
    · rw [hkeys, List.nodup_append]
      refine ⟨h.distinct, List.nodup_singleton _, fun loc hloc other hother heq => ?_⟩
      rw [List.mem_singleton.mp hother] at heq
      obtain ⟨old, hentry⟩ := (mem_keys_iff hne).mp (heq ▸ hloc)
      rw [get?_of_ne_nil _ hne] at hentry
      exact hsome (Option.isSome_iff_exists.mpr ⟨old, hentry⟩)
    · rw [hkeys]
      intro loc hloc
      rcases List.mem_append.mp hloc with hloc | hloc
      · exact hkept loc hloc
      · exact ⟨dir, name, List.mem_singleton.mp hloc, hgrow.dir hdir, hname⟩

end Proper

/-- Entries with distinct locations are told by their locations and by what is looked up there. -/
theorem entries_eq_filterMap {entries : List (Location × Entry)} (h : (entries.map Prod.fst).Nodup) :
    entries = (entries.map Prod.fst).filterMap fun loc => (entries.lookup loc).map fun entry => (loc, entry) := by
  induction entries with
  | nil => rfl
  | cons item rest ih =>
      obtain ⟨hfresh, hrest⟩ := List.nodup_cons.mp h
      have hother : ∀ loc ∈ rest.map Prod.fst, (item :: rest).lookup loc = rest.lookup loc := by
        intro loc hloc
        have hne : loc ≠ item.1 := fun heq => hfresh (heq ▸ hloc)
        rw [List.lookup_cons, beq_eq_false_iff_ne.mpr hne]
      rw [List.map_cons, List.filterMap_cons, List.lookup_cons, beq_self_eq_true]
      simp only [Option.map_some]
      congr 1
      rw [List.filterMap_congr fun loc hloc => by rw [hother loc hloc]]
      exact ih hrest

/-- A proper tree is told by its locations and by what stands at them. -/
theorem Proper.ext (h : tree.Proper) (hleft : left.Proper) (hcwd : left.cwd = tree.cwd)
    (hkeys : left.entries.map Prod.fst = tree.entries.map Prod.fst) (hget : ∀ loc, left.get? loc = tree.get? loc) :
    left = tree := by
  have hentries : left.entries = tree.entries := by
    rw [entries_eq_filterMap hleft.distinct, entries_eq_filterMap h.distinct, hkeys]
    refine List.filterMap_congr fun loc hloc => ?_
    obtain ⟨dir, name, rfl, -⟩ := h.stands loc hloc
    have hne : dir ++ [name] ≠ [] := by simp
    rw [← get?_of_ne_nil _ hne, ← get?_of_ne_nil _ hne, hget]
  cases left
  cases tree
  simp_all

/-! ### Building -/

/-- A tree is built from another by putting entries that are no links into directories. -/
inductive Built (tree : FileTree) : FileTree → Prop
  | refl : Built tree tree
  | put {middle : FileTree} {dir : Location} {name : Name} {entry : Entry} (h : Built tree middle)
      (hdir : middle.get? dir = some .dir) (hname : EntryName name) (hlink : ∀ target, entry ≠ .link target)
      (hold : ∀ old, middle.get? (dir ++ [name]) = some old → old.outline = entry.outline) :
      Built tree (middle.put (dir ++ [name]) entry)

namespace Built

theorem trans (h₁ : Built tree middle) (h₂ : Built middle left) : Built tree left := by
  induction h₂ with
  | refl => exact h₁
  | put _ hdir hname hlink hold ih => exact .put ih hdir hname hlink hold

theorem proper (h : Built tree left) (hproper : tree.Proper) : left.Proper := by
  induction h with
  | refl => exact hproper
  | put _ hdir hname _ hold ih => exact ih.put hdir hname hold

theorem clear (h : Built tree left) (hclear : ∀ loc, tree.Clear loc) (loc : Location) : left.Clear loc := by
  induction h with
  | refl => exact hclear loc
  | put _ _ _ hlink _ ih => exact ih.put hlink (by simp)

/-- New locations come after the old ones. -/
theorem keys (h : Built tree left) : tree.entries.map Prod.fst <+: left.entries.map Prod.fst := by
  induction h with
  | refl => exact List.prefix_refl _
  | @put middle dir name entry _ _ _ _ _ ih =>
      rw [keys_put]
      split_ifs
      · exact ih
      · exact ih.trans (List.prefix_append _ _)

end Built

/-! ### Where new entries go -/

/-- Without links the name of a free place is one of the steps. -/
theorem Leads.free_mem {follow slash : Bool} {links : Nat} {steps : List Name}
    (h : tree.Leads follow links loc steps (.free dir name slash)) (hclear : ∀ loc, tree.Clear loc) :
    name ∈ steps ∧ Enterable name := by
  generalize hplace : Place.free dir name slash = place at h
  induction h with
  | done | slash | link => cases hplace
  | free _ hname _ _ =>
      cases hplace
      exact ⟨List.mem_cons_self, hname⟩
  | through _ _ hlink => exact absurd hlink ((hclear _).not_link _)
  | stay _ _ _ _ ih | up _ _ ih | enter _ _ _ _ _ ih =>
      obtain ⟨hmem, hname⟩ := ih hplace
      exact ⟨List.mem_cons_of_mem _ hmem, hname⟩

/-- A step of a path has neither a slash nor a byte that the path does not have. -/
theorem entryName_of_mem_steps (hzero : path.contains 0 = false) (hmem : name ∈ path.steps) (hname : Enterable name) :
    EntryName name := by
  have hpiece : name ∈ path.pieces := by
    rcases List.mem_append.mp hmem with hmem | hmem
    · exact (List.mem_filter.mp hmem).1
    · split_ifs at hmem
      · exact absurd (List.mem_singleton.mp hmem) hname.ne_nil
      · cases hmem
  refine ⟨⟨hname.ne_nil, hname.ne_here, hname.ne_above, Text.not_mem_of_mem_pieces hpiece⟩, fun hmem => ?_, hname.short⟩
  rw [Bool.eq_false_iff, ne_eq, List.contains_iff_mem] at hzero
  exact hzero (Text.subset_of_mem_pieces hpiece hmem)

theorem Reaches.entryName {follow slash : Bool} (h : tree.Reaches follow path (.free dir name slash))
    (hclear : ∀ loc, tree.Clear loc) : EntryName name :=
  let ⟨hmem, hname⟩ := h.leads.free_mem hclear
  entryName_of_mem_steps h.noZero hmem hname

theorem makeDir_built (h : tree.makeDir path = .ok left) (hclear : ∀ loc, tree.Clear loc) : Built tree left := by
  unfold makeDir at h
  cases hplace : tree.place false path with
  | error e => rw [hplace] at h; cases h
  | ok place =>
      rw [hplace] at h
      cases place with
      | «at» loc slash => cases h
      | free dir name slash =>
          cases h
          have hreach := place_eq_ok_iff.mp hplace
          obtain ⟨hdir, hnone⟩ := hreach.leads.free_get?
          refine .put .refl hdir (hreach.entryName hclear) (by simp) fun old hold => ?_
          rw [hnone] at hold
          cases hold

theorem makeDirsFrom_built (paths : List Path) (hclear : ∀ loc, tree.Clear loc) :
    Built tree (tree.makeDirsFrom paths).1 := by
  induction paths with
  | nil => exact .refl
  | cons path outer ih =>
      rw [makeDirsFrom]
      cases hmake : tree.makeDir path with
      | ok made => exact makeDir_built hmake hclear
      | error e =>
          simp only
          split_ifs
          · rcases haround : tree.makeDirsFrom outer with ⟨around, outcome⟩
            rw [haround] at ih
            cases outcome with
            | error e' => exact ih
            | ok =>
                simp only
                cases hmake' : around.makeDir path with
                | ok made => exact ih.trans (makeDir_built hmake' (ih.clear hclear))
                | error e' => exact ih
          · exact .refl

/-- What a path leads to in a proper tree is there. -/
theorem Leads.exists_entry {follow slash : Bool} {links : Nat} {steps : List Name} {found : Location}
    (h : tree.Leads follow links loc steps (.at found slash)) (hproper : tree.Proper)
    (hclear : ∀ loc, tree.Clear loc) (hloc : tree.get? loc = some entry) : ∃ other, tree.get? found = some other := by
  generalize hplace : Place.at found slash = place at h
  induction h generalizing entry with
  | done | slash =>
      cases hplace
      exact ⟨entry, hloc⟩
  | free => cases hplace
  | link _ _ hlink =>
      cases hplace
      exact ⟨_, hlink⟩
  | through _ _ hlink => exact absurd hlink ((hclear _).not_link _)
  | stay _ _ _ _ ih => exact ih hloc hplace
  | @up _ loc _ _ hdir _ ih =>
      by_cases hnil : loc = []
      · subst hnil
        exact ih hloc hplace
      · exact ih (hproper.dropLast hdir hnil) hplace
  | enter _ _ hentry _ _ ih => exact ih hentry hplace

/-- A path that leads anywhere starts from a directory. -/
theorem Reaches.start_dir {follow : Bool} {place : Place} (h : tree.Reaches follow path place) :
    tree.get? (tree.start path) = some .dir := by
  unfold start
  split_ifs with habsolute
  · exact tree.get?_nil
  · -- A path that does not start with a slash has a proper first step, which needs a directory to stand in.
    obtain ⟨step, rest, hpieces⟩ := List.exists_cons_of_ne_nil (Text.pieces_ne_nil Path.slash path)
    have hstep : step ≠ [] := by
      rintro rfl
      rcases Text.head?_pieces_eq_nil (by rw [hpieces]; rfl) with hnil | hhead
      · exact h.ne_nil hnil
      · exact habsolute (by simp [Path.isAbsolute, hhead])
    have hsteps : ∃ more, path.steps = step :: more := by
      rw [Path.steps, Path.pieces, hpieces, List.filter_cons_of_pos (by simpa using hstep)]
      exact ⟨_, rfl⟩
    obtain ⟨more, hsteps⟩ := hsteps
    have hleads := h.leads
    rw [start, if_neg habsolute, hsteps] at hleads
    cases hleads with
    | slash => exact absurd rfl hstep
    | stay _ hdir | up hdir | free hdir | link hdir | through hdir | enter hdir => exact hdir

theorem writeFile_built {content : Bytes} (h : tree.writeFile path content = .ok left) (hproper : tree.Proper)
    (hclear : ∀ loc, tree.Clear loc) : Built tree left := by
  unfold writeFile at h
  cases hplace : tree.place true path with
  | error e => rw [hplace] at h; cases h
  | ok place =>
      have hreach := place_eq_ok_iff.mp hplace
      rw [hplace] at h
      cases place with
      | «at» loc slash =>
          simp only [bind, Except.bind, Bool.or_eq_true, decide_eq_true_eq] at h
          split_ifs at h with hdir
          rw [not_or] at hdir
          cases h
          obtain ⟨old, hentry⟩ := hreach.leads.exists_entry hproper hclear hreach.start_dir
          have hne : loc ≠ [] := fun hnil => hdir.2 (by rw [hnil, get?_nil])
          obtain ⟨dir, name, rfl, hparent, hname⟩ := hproper.stands loc ((mem_keys_iff hne).mpr ⟨old, hentry⟩)
          refine .put .refl hparent hname (by simp) fun old hold => ?_
          cases old with
          | file content => rfl
          | dir => exact absurd hold hdir.2
          | link target => exact absurd hold ((hclear _).not_link target)
      | free dir name slash =>
          simp only [bind, Except.bind] at h
          split_ifs at h
          cases h
          obtain ⟨hparent, hnone⟩ := hreach.leads.free_get?
          refine .put .refl hparent (hreach.entryName hclear) (by simp) fun old hold => ?_
          rw [hnone] at hold
          cases hold

/-! ### Entries by their paths -/

theorem isDir_of_locate (hloc : tree.locate path = .ok loc) (hdir : tree.get? loc ≠ some .dir) :
    tree.isDir path = false := by
  rw [Bool.eq_false_iff]
  intro hisDir
  obtain ⟨found, hfound, hget⟩ := isDir_iff.mp hisDir
  obtain rfl : loc = found := Except.ok.inj (hloc.symm.trans hfound)
  exact hdir hget

theorem isDir_of_long (h : pathLimit ≤ path.length) : tree.isDir path = false := by
  rw [Bool.eq_false_iff]
  intro hdir
  obtain ⟨loc, hloc, -⟩ := isDir_iff.mp hdir
  obtain ⟨slash, hreach, -⟩ := locate_eq_ok_iff.mp hloc
  exact absurd hreach.short (not_lt.mpr h)

theorem EntryName.noZero_join (h : EntryName name) (hpath : path.contains 0 = false) :
    (path.join name).contains 0 = false := by
  rw [Bool.eq_false_iff, ne_eq, List.contains_iff_mem] at hpath ⊢
  rw [Path.join_of_not_mem h.plain.noSlash]
  split_ifs <;> simp [hpath, h.noZero, Path.slash]

/-- A file of a directory is read by its name, unless the path gets too long. -/
theorem Proper.readFile_join (h : tree.Proper) {content : Bytes} (hloc : tree.locate path = .ok loc)
    (hfile : tree.get? (loc ++ [name]) = some (.file content)) :
    tree.readFile (path.join name) =
      if pathLimit ≤ (path.join name).length then .error (.os .nameTooLong) else .ok content := by
  obtain ⟨hdir, hname⟩ := h.stands_of_get? hfile
  obtain ⟨slash, hreach, -⟩ := locate_eq_ok_iff.mp hloc
  rw [FileTree.readFile_join hloc hdir (by simp [hfile]) hname.plain, hname.noZero_join hreach.noZero, hfile]
  simp [not_lt.mpr hname.short]

/-- An entry of a directory is reached by its name, unless the path gets too long. -/
theorem locate_join (hproper : tree.Proper) (hclear : ∀ loc, tree.Clear loc) (hloc : tree.locate path = .ok loc)
    (hentry : tree.get? (loc ++ [name]) = some entry) (hshort : (path.join name).length < pathLimit) :
    tree.locate (path.join name) = .ok (loc ++ [name]) := by
  obtain ⟨hdir, hname⟩ := hproper.stands_of_get? hentry
  obtain ⟨slash, hreach, -⟩ := locate_eq_ok_iff.mp hloc
  obtain ⟨links, hplace⟩ := place_join_of_dir hloc hdir hname.plain
  have hlink : ∀ target, entry ≠ .link target := by
    rintro target rfl
    exact (hclear _).not_link target hentry
  rw [hname.noZero_join hreach.noZero, if_neg (by simp), if_neg (not_le.mpr hshort), walk_enter hdir hname.enterable hentry hlink, walk] at hplace
  rw [locate, hplace]
  rfl

theorem length_lt_join (path : Path) (hname : Path.Plain name) : path.length < (path.join name).length := by
  have hlength := List.length_pos_iff.mpr hname.ne_nil
  rw [Path.join_of_not_mem hname.noSlash]
  split_ifs
  · rw [List.length_append]
    omega
  · rw [List.length_append, List.length_cons]
    omega

/-! ### Trees that are made -/

theorem get?_erase (tree : FileTree) {loc other : Location} (hother : other ≠ []) :
    (tree.erase loc).get? other = if loc <+: other then none else tree.get? other := by
  rw [get?_of_ne_nil _ hother, get?_of_ne_nil _ hother, erase]
  induction tree.entries with
  | nil => simp
  | cons item rest ih =>
      obtain ⟨place, entry⟩ := item
      by_cases hplace : loc <+: place
      · rw [List.filter_cons_of_neg (by simpa using hplace), ih, List.lookup_cons]
        split_ifs with hunder
        · rfl
        · have hne : other ≠ place := fun heq => hunder (heq ▸ hplace)
          rw [beq_eq_false_iff_ne.mpr hne]
      · have hkeep : loc.isPrefixOf place = false := by
          rw [← List.isPrefixOf_iff_prefix] at hplace
          exact Bool.eq_false_of_not_eq_true hplace
        rw [List.filter_cons_of_pos (by simp [hkeep]), List.lookup_cons, List.lookup_cons]
        by_cases heq : other = place
        · rw [heq, beq_self_eq_true, if_neg hplace]
        · rw [beq_eq_false_iff_ne.mpr heq]
          exact ih

/-- Removing an entry with all below it keeps a tree proper. -/
theorem Proper.erase (h : tree.Proper) (loc : Location) : (tree.erase loc).Proper := by
  have hsub : (tree.erase loc).entries.Sublist tree.entries := List.filter_sublist
  refine ⟨h.distinct.sublist (hsub.map Prod.fst), fun other hother => ?_⟩
  obtain ⟨dir, name, rfl, hdir, hname⟩ := h.stands other ((hsub.map Prod.fst).subset hother)
  refine ⟨dir, name, rfl, ?_, hname⟩
  obtain ⟨entry, hentry⟩ := (mem_keys_iff (by simp)).mp hother
  rw [get?_erase _ (by simp)] at hentry
  split_ifs at hentry with hunder
  by_cases hnil : dir = []
  · rw [hnil, get?_nil]
  · rw [get?_erase _ hnil, if_neg fun hdir => hunder (hdir.trans (List.prefix_append dir [name])), hdir]

theorem Clear.erase (h : tree.Clear loc) (other : Location) : (tree.erase other).Clear loc := by
  intro front hfront target hget
  by_cases hnil : front = []
  · rw [hnil, get?_nil] at hget
    cases hget
  · rw [get?_erase _ hnil] at hget
    split_ifs at hget
    exact h front hfront target hget

/-- The trees that making directories, writing files and removing entries lead to. -/
inductive Made : FileTree → Prop
  | fresh : Made fresh
  | makeDirs {tree : FileTree} (h : Made tree) (path : Path) : Made (tree.makeDirs path).1
  | writeFile {tree left : FileTree} {path : Path} {content : Bytes} (h : Made tree)
      (hwrite : tree.writeFile path content = .ok left) : Made left
  | remove {tree left : FileTree} {path : Path} (h : Made tree) (hremove : tree.remove path = .ok left) : Made left

/-- All of them are proper, and without links. -/
theorem Made.proper (h : Made tree) : tree.Proper ∧ ∀ loc, tree.Clear loc := by
  induction h with
  | fresh =>
      have hfree : FileTree.fresh.LinkFree := by decide
      exact ⟨by decide, hfree.clear⟩
  | makeDirs _ path ih =>
      have hbuilt := makeDirsFrom_built path.ancestors ih.2
      exact ⟨hbuilt.proper ih.1, hbuilt.clear ih.2⟩
  | writeFile _ hwrite ih =>
      have hbuilt := writeFile_built hwrite ih.1 ih.2
      exact ⟨hbuilt.proper ih.1, hbuilt.clear ih.2⟩
  | @remove tree left path _ hremove ih =>
      unfold FileTree.remove at hremove
      cases hplace : tree.place false path with
      | error e => rw [hplace] at hremove; cases hremove
      | ok place =>
          rw [hplace] at hremove
          cases place with
          | «at» loc slash =>
              cases hremove
              exact ⟨ih.1.erase loc, fun other => (ih.2 other).erase loc⟩
          | free dir name slash => cases hremove

end RouteBook.FileTree
