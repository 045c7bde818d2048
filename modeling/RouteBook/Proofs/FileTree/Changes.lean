import RouteBook.Proofs.FileTree.Leads

/-! What making directories and writing files change. A new directory stands where its path leads; a written
file stands where its path leads and replaces nothing but a file; all else is as it was. Directories that were
made once need not be made again, however the tree grew since. -/

namespace RouteBook.FileTree

variable {tree made left : FileTree} {path : Path} {loc : Location}

/-! ### One directory, one file -/

/-- A new directory is put at a location that was free, to which its path then leads. -/
theorem makeDir_ok (h : tree.makeDir path = .ok made) :
    ∃ loc, loc ≠ [] ∧ tree.get? loc = none ∧ made = tree.put loc .dir ∧ made.locate path = .ok loc := by
  unfold makeDir at h
  cases hplace : tree.place false path with
  | error e => rw [hplace] at h; cases h
  | ok place =>
      rw [hplace] at h
      cases place with
      | «at» loc slash => cases h
      | free dir name slash =>
          cases h
          obtain ⟨hzero, hnil, hshort, hleads⟩ := place_eq_ok_iff.mp hplace
          have hne : dir ++ [name] ≠ [] := by simp
          have hnone := hleads.free_get?.2
          have hgrow : tree.Extends (tree.put (dir ++ [name]) .dir) :=
            extends_put hne (fun old hold => by rw [hnone] at hold; cases hold)
          have hdir := tree.get?_put_self hne .dir
          refine ⟨dir ++ [name], hne, hnone, rfl, locate_eq_ok_iff.mpr ⟨slash, ⟨hzero, hnil, hshort, ?_⟩, fun _ => hdir⟩⟩
          rw [start_extends hgrow]
          refine hleads.free_follow.grown hgrow (fun _ _ _ hfree => ?_)
          cases hfree
          exact ⟨.dir, hdir, fun target => by simp⟩

/-- A written file is put at a location that was free or held a file, to which its path then leads. -/
theorem writeFile_ok {content : Bytes} (h : tree.writeFile path content = .ok left) (hcwd : tree.Clear tree.cwd) :
    ∃ loc, loc ≠ [] ∧ (∀ old, tree.get? loc = some old → old.outline = .file []) ∧
      left = tree.put loc (.file content) ∧ left.locate path = .ok loc := by
  unfold writeFile at h
  cases hplace : tree.place true path with
  | error e => rw [hplace] at h; cases h
  | ok place =>
      have hreach := place_eq_ok_iff.mp hplace
      rw [hplace] at h
      -- In both cases the steps end without a slash, and lead to the location that the content is put at.
      have hput : place.slash = false ∧ tree.get? place.location ≠ some .dir ∧
          left = tree.put place.location (.file content) := by
        cases place with
        | «at» loc slash =>
            simp only [bind, Except.bind, Bool.or_eq_true, decide_eq_true_eq] at h
            split_ifs at h with hdir
            rw [not_or] at hdir
            cases h
            exact ⟨Bool.eq_false_of_not_eq_true hdir.1, hdir.2, rfl⟩
        | free dir name slash =>
            simp only [bind, Except.bind] at h
            split_ifs at h with hslash
            cases h
            have hnone : tree.get? (dir ++ [name]) ≠ some .dir := by
              rw [hreach.leads.free_get?.2]
              simp
            exact ⟨Bool.eq_false_of_not_eq_true hslash, hnone, rfl⟩
      obtain ⟨hslash, hdir, rfl⟩ := hput
      have hne : place.location ≠ [] := fun hnil => hdir (by rw [hnil, get?_nil])
      have hold : ∀ old, tree.get? place.location = some old → old.outline = .file [] := by
        intro old hold
        cases old with
        | file content => rfl
        | dir => exact absurd hold hdir
        | link target => exact absurd hold ((hreach.clear hcwd).not_link target)
      have hgrow : tree.Extends (tree.put place.location (.file content)) := extends_put hne hold
      refine ⟨place.location, hne, hold, rfl, locate_eq_ok_iff.mpr ⟨false, ?_, by simp⟩⟩
      refine ⟨hreach.noZero, hreach.ne_nil, hreach.short, ?_⟩
      rw [start_extends hgrow, ← hslash]
      refine hreach.leads.grown hgrow (fun dir name slash hfree => ?_)
      exact ⟨.file content, by rw [hfree] at hne ⊢; exact get?_put_self _ hne _, fun target => by simp⟩

/-- Writing to what is there fails only where it is a directory. -/
theorem get?_of_writeFile_error {content : Bytes} {e : IoError} (h : tree.writeFile path content = .error e)
    (hloc : tree.locate path = .ok loc) : tree.get? loc = some .dir := by
  obtain ⟨slash, hreach, hslash⟩ := locate_eq_ok_iff.mp hloc
  rw [writeFile, place_eq_ok_iff.mpr hreach] at h
  simp only [bind, Except.bind, Bool.or_eq_true, decide_eq_true_eq] at h
  split_ifs at h with hdir
  exact hdir.elim hslash id

/-! ### Directories around a directory -/

/-- The tree grew by directories only, each of them where one of the paths leads. -/
structure DirsMade (paths : List Path) (tree left : FileTree) : Prop where
  grown : tree.Extends left
  frame : ∀ loc, left.get? loc = tree.get? loc ∨
    (tree.get? loc = none ∧ left.get? loc = some .dir ∧ ∃ path ∈ paths, left.locate path = .ok loc)

namespace DirsMade

variable {paths more : List Path}

theorem refl (paths : List Path) (tree : FileTree) : DirsMade paths tree tree := ⟨.refl tree, fun _ => Or.inl rfl⟩

theorem mono (h : DirsMade paths tree left) (hmore : paths ⊆ more) : DirsMade more tree left := by
  refine ⟨h.grown, fun loc => (h.frame loc).imp_right ?_⟩
  rintro ⟨hnone, hdir, path, hpath, hlocate⟩
  exact ⟨hnone, hdir, path, hmore hpath, hlocate⟩

theorem trans (h₁ : DirsMade paths tree made) (h₂ : DirsMade paths made left) : DirsMade paths tree left := by
  refine ⟨h₁.grown.trans h₂.grown, fun loc => ?_⟩
  rcases h₂.frame loc with heq | ⟨hnone, hdir, path, hpath, hlocate⟩
  · rw [heq]
    refine (h₁.frame loc).imp_right ?_
    rintro ⟨hnone, hdir, path, hpath, hlocate⟩
    exact ⟨hnone, hdir, path, hpath, locate_extends h₂.grown hlocate⟩
  · exact Or.inr ⟨h₁.grown.none hnone, hdir, path, hpath, hlocate⟩

theorem clear (h : DirsMade paths tree left) (hloc : tree.Clear loc) : left.Clear loc := by
  intro front hfront target hlink
  rcases h.frame front with heq | ⟨-, hdir, -⟩
  · exact hloc front hfront target (heq ▸ hlink)
  · rw [hdir] at hlink
    cases hlink

end DirsMade

theorem isDir_iff : tree.isDir path = true ↔ ∃ loc, tree.locate path = .ok loc ∧ tree.get? loc = some .dir := by
  unfold isDir
  cases tree.locate path with
  | error e => simp
  | ok loc => simp

/-- A file is read where its path leads. -/
theorem readFile_eq_ok_iff {content : Bytes} :
    tree.readFile path = .ok content ↔ ∃ loc, tree.locate path = .ok loc ∧ tree.get? loc = some (.file content) := by
  rw [readFile]
  cases tree.locate path with
  | error e => simp [bind, Except.bind]
  | ok loc =>
      simp only [bind, Except.bind, Except.ok.injEq, exists_eq_left']
      split
      · next heq => simp [heq]
      · next entry hfile heq => simpa [heq] using hfile content
      · next heq => simp [heq]

theorem isDir_extends (h : tree.Extends left) (hdir : tree.isDir path = true) : left.isDir path = true := by
  obtain ⟨loc, hlocate, hget⟩ := isDir_iff.mp hdir
  exact isDir_iff.mpr ⟨loc, locate_extends h hlocate, h.dir hget⟩

theorem makeDir_made (h : tree.makeDir path = .ok made) : DirsMade [path] tree made ∧ made.isDir path = true := by
  obtain ⟨loc, hne, hnone, rfl, hlocate⟩ := makeDir_ok h
  have hdir := tree.get?_put_self hne .dir
  refine ⟨⟨extends_put hne (fun old hold => by rw [hnone] at hold; cases hold), fun other => ?_⟩,
    isDir_iff.mpr ⟨loc, hlocate, hdir⟩⟩
  by_cases heq : other = loc
  · subst other
    exact Or.inr ⟨hnone, hdir, path, List.mem_singleton_self path, hlocate⟩
  · exact Or.inl (tree.get?_put_of_ne heq .dir)

/-- Making a directory where there is one fails, and not for want of a directory around it. -/
theorem makeDir_of_isDir (h : tree.isDir path = true) : tree.makeDir path = .error (.os .taken) := by
  obtain ⟨loc, hlocate, -⟩ := isDir_iff.mp h
  obtain ⟨slash, hreach, -⟩ := locate_eq_ok_iff.mp hlocate
  obtain ⟨other, slash', hleads⟩ := hreach.leads.at_unfollowed
  have hplace : tree.place false path = .ok (.at other slash') :=
    place_eq_ok_iff.mpr ⟨hreach.noZero, hreach.ne_nil, hreach.short, hleads⟩
  rw [makeDir, hplace]
  rfl

theorem makeDirsFrom_of_isDir {outer : List Path} (h : tree.isDir path = true) :
    tree.makeDirsFrom (path :: outer) = (tree, .ok ()) := by
  rw [makeDirsFrom, makeDir_of_isDir h]
  exact (if_neg (by decide)).trans (by rw [orDir, if_pos h])

theorem isDir_of_orDir {e : IoError} (h : tree.orDir path e = .ok ()) : tree.isDir path = true := by
  unfold orDir at h
  split_ifs at h with hdir
  exact hdir

/-- What making directories leaves behind, also when it fails half-way; if it does not fail, the innermost
directory is there. -/
theorem makeDirsFrom_made (tree : FileTree) (paths : List Path) :
    DirsMade paths tree (tree.makeDirsFrom paths).1 ∧
      ((tree.makeDirsFrom paths).2 = .ok () → ∀ path ∈ paths.head?, (tree.makeDirsFrom paths).1.isDir path = true) := by
  induction paths with
  | nil => exact ⟨.refl _ _, fun _ path hpath => by cases hpath⟩
  | cons path outer ih =>
      have hself : [path] ⊆ path :: outer := by simp
      rw [makeDirsFrom]
      simp only [List.head?_cons, Option.mem_some_iff, forall_eq']
      cases hmake : tree.makeDir path with
      | ok made =>
          obtain ⟨hmade, hdir⟩ := makeDir_made hmake
          exact ⟨hmade.mono hself, fun _ => hdir⟩
      | error e =>
          simp only
          split_ifs with hfound
          · rcases haround : tree.makeDirsFrom outer with ⟨around, outcome⟩
            rw [haround] at ih
            have houter := ih.1.mono (List.subset_cons_self path outer)
            cases outcome with
            | error e' => exact ⟨houter, fun h => by cases h⟩
            | ok =>
                simp only
                cases hmake' : around.makeDir path with
                | ok made =>
                    obtain ⟨hmade, hdir⟩ := makeDir_made hmake'
                    exact ⟨houter.trans (hmade.mono hself), fun _ => hdir⟩
                | error e' => exact ⟨houter, isDir_of_orDir⟩
          · exact ⟨.refl _ _, isDir_of_orDir⟩

/-- Once a directory was made, making it again changes nothing, however the tree grew since. -/
theorem makeDirs_again (h : tree.makeDirs path = (made, .ok ())) (hgrow : made.Extends left) :
    left.makeDirs path = (left, .ok ()) := by
  unfold makeDirs at h ⊢
  have hmade := (makeDirsFrom_made tree path.ancestors).2
  rw [h] at hmade
  cases hpaths : path.ancestors with
  | nil => rfl
  | cons first outer =>
      rw [hpaths] at hmade
      exact makeDirsFrom_of_isDir (isDir_extends hgrow (hmade rfl first rfl))

end RouteBook.FileTree
