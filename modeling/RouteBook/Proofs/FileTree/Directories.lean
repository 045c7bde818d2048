import RouteBook.Proofs.FileTree.LinkFree

/-! Entries of a directory, in trees with symbolic links. Wherever the path of a directory leads, a path to a name in
it goes on from there, with the links that are left to be followed; and if the path of the directory leads nowhere,
so do all paths into it. Conversely, what is reached by a name in a directory tells that the directory is there. -/

namespace RouteBook.FileTree

variable {tree : FileTree} {follow : Bool} {links : Nat} {loc found : Location} {name step : Name} {rest : List Name}
  {place : Place} {slash : Bool}

/-! ### Single steps -/

theorem walk_stay (hslash : ¬(step = [] ∧ rest.all List.isEmpty)) (hdir : tree.get? loc = some .dir)
    (hstep : step = [] ∨ step = Path.here) :
    tree.walk follow links loc (step :: rest) = tree.walk follow links loc rest := by
  rw [walk, if_neg (by simpa using hslash), if_neg (not_not.mpr hdir), if_pos (by simpa using hstep)]

theorem walk_up (hdir : tree.get? loc = some .dir) :
    tree.walk follow links loc (Path.above :: rest) = tree.walk follow links loc.dropLast rest := by
  rw [walk, if_neg (by simp [Path.above]), if_neg (not_not.mpr hdir), if_neg (by decide), if_pos rfl]

theorem walk_through {target : Path} (hdir : tree.get? loc = some .dir) (hstep : Enterable step)
    (hlink : tree.get? (loc ++ [step]) = some (.link target)) :
    tree.walk true (links + 1) loc (step :: rest) =
      tree.walk true links (if target.isAbsolute then [] else loc) (target.steps ++ rest) := by
  rw [walk_enterable hdir hstep, hlink]
  exact if_neg (by simp)

theorem walk_enter {entry : Entry} (hdir : tree.get? loc = some .dir) (hstep : Enterable step)
    (hentry : tree.get? (loc ++ [step]) = some entry) (hlink : ∀ target, entry ≠ .link target) :
    tree.walk follow links loc (step :: rest) = tree.walk follow links (loc ++ [step]) rest := by
  rw [walk_enterable hdir hstep, hentry]
  cases entry with
  | file content => rfl
  | dir => rfl
  | link target => exact absurd rfl (hlink target)

theorem walk_long (hdir : tree.get? loc = some .dir) (hname : Path.Plain name) (hlong : nameLimit < name.length) :
    tree.walk follow links loc [name] = .error .nameTooLong := by
  rw [walk, if_neg (by simp [hname.ne_nil]), if_neg (not_not.mpr hdir), if_neg (by simp [hname.ne_nil, hname.ne_here]),
    if_neg hname.ne_above, if_pos hlong]

/-! ### Slashes alone -/

theorem walk_isEmpty {front : List Name} (hfront : front.all List.isEmpty) (hdir : tree.get? loc = some .dir)
    (hname : name ≠ []) : tree.walk true links loc (front ++ [name]) = tree.walk true links loc [name] := by
  induction front with
  | nil => rfl
  | cons step front ih =>
      simp only [List.all_cons, Bool.and_eq_true, List.isEmpty_iff] at hfront
      rw [List.cons_append, walk_stay (by simp [hname]) hdir (Or.inl hfront.1), ih hfront.2]

theorem leads_isEmpty {steps : List Name} (h : steps.all List.isEmpty) :
    ∃ slash, tree.Leads true links loc steps (.at loc slash) := by
  cases steps with
  | nil => exact ⟨false, .done⟩
  | cons step steps =>
      simp only [List.all_cons, Bool.and_eq_true, List.isEmpty_iff] at h
      obtain ⟨rfl, hsteps⟩ := h
      exact ⟨true, .slash hsteps⟩

/-- A proper step is not one of the slashes at the end. -/
theorem exists_cons_of_append {front tail : List Name} (hsteps : step :: rest = front ++ tail)
    (htail : tail.all List.isEmpty) (hstep : ¬(step = [] ∧ rest.all List.isEmpty)) :
    ∃ more, front = step :: more ∧ rest = more ++ tail := by
  cases front with
  | nil =>
      rw [List.nil_append] at hsteps
      rw [← hsteps, List.all_cons, Bool.and_eq_true, List.isEmpty_iff] at htail
      exact absurd htail hstep
  | cons first more =>
      obtain ⟨rfl, rfl⟩ := List.cons_eq_cons.mp hsteps
      exact ⟨more, rfl, rfl⟩

/-! ### From a directory to its entries -/

/-- A walk goes on from the directory that its first steps lead to, whether or not they are written with slashes at
the end. -/
theorem Leads.walk_from {steps front tail : List Name} (h : tree.Leads true links loc steps (.at found slash))
    (hsteps : steps = front ++ tail) (htail : tail.all List.isEmpty) (hdir : tree.get? found = some .dir) :
    ∃ left, ∀ name, name ≠ [] → tree.walk true links loc (front ++ [name]) = tree.walk true left found [name] := by
  generalize hplace : Place.at found slash = place at h
  -- Behind a link the steps of its target come first, so the induction is over all fronts.
  induction h generalizing front with
  | @done links =>
      cases hplace
      rw [(List.append_eq_nil_iff.mp hsteps.symm).1]
      exact ⟨links, fun _ _ => rfl⟩
  | @slash links _ rest hrest =>
      cases hplace
      have hall : (front ++ tail).all List.isEmpty := by rw [← hsteps]; simpa using hrest
      rw [List.all_append, Bool.and_eq_true] at hall
      exact ⟨links, fun name hname => walk_isEmpty hall.1 hdir hname⟩
  | stay hslash hhere hstep _ ih =>
      obtain ⟨more, rfl, hrest⟩ := exists_cons_of_append hsteps htail hslash
      obtain ⟨left, hleft⟩ := ih hrest hplace
      refine ⟨left, fun name hname => ?_⟩
      rw [List.cons_append, walk_stay (by simp [hname]) hhere hstep, hleft name hname]
  | up hhere _ ih =>
      obtain ⟨more, rfl, hrest⟩ := exists_cons_of_append hsteps htail (by simp [Path.above])
      obtain ⟨left, hleft⟩ := ih hrest hplace
      refine ⟨left, fun name hname => ?_⟩
      rw [List.cons_append, walk_up hhere, hleft name hname]
  | free => cases hplace
  | link _ _ _ hfollow _ => cases hfollow
  | @through _ _ _ _ target _ hhere hstep hlink _ _ ih =>
      obtain ⟨more, rfl, hrest⟩ := exists_cons_of_append hsteps htail (by simp [hstep.ne_nil])
      have htarget : target.steps ++ (more ++ tail) = (target.steps ++ more) ++ tail := (List.append_assoc ..).symm
      obtain ⟨left, hleft⟩ := ih (hrest ▸ htarget) hplace
      refine ⟨left, fun name hname => ?_⟩
      rw [List.cons_append, walk_through hhere hstep hlink, ← List.append_assoc, hleft name hname]
  | enter hhere hstep hentry hlink _ ih =>
      obtain ⟨more, rfl, hrest⟩ := exists_cons_of_append hsteps htail (by simp [hstep.ne_nil])
      obtain ⟨left, hleft⟩ := ih hrest hplace
      refine ⟨left, fun name hname => ?_⟩
      rw [List.cons_append, walk_enter hhere hstep hentry hlink, hleft name hname]

/-- A walk that ends at a free name, or before it for want of an entry. -/
def Nowhere : Except Errno Place → Prop
  | .error e => e = .noEntry
  | .ok (.free ..) => True
  | .ok (.at ..) => False

/-- Where the steps to a directory lead nowhere, no name leads on. -/
theorem walk_noEntry {steps front tail : List Name} (h : Nowhere (tree.walk true links loc steps))
    (hsteps : steps = front ++ tail) (htail : tail.all List.isEmpty) (hname : name ≠ []) :
    tree.walk true links loc (front ++ [name]) = .error .noEntry := by
  have hlast : ∀ more : List Name, ¬(more ++ [name]).all List.isEmpty = true := by simp [hname]
  -- The walk to the directory is followed; the name stands behind whatever is left of the front.
  fun_induction tree.walk true links loc steps generalizing front with
  | case1 | case2 => cases h
  | case3 | case6 | case10 =>
      exact absurd h (by simp [Nowhere, Errno.notDirectory, Errno.nameTooLong, Errno.linkLoop, Errno.noEntry])
  | case4 links loc step rest hslash hdir hstep ih =>
      obtain ⟨more, rfl, hrest⟩ := exists_cons_of_append hsteps htail (by simpa using hslash)
      rw [List.cons_append, walk_stay (fun hend => hlast more hend.2) (not_not.mp hdir) (by simpa using hstep), ih h hrest]
  | case5 links loc rest hdir hslash hstep ih =>
      obtain ⟨more, rfl, hrest⟩ := exists_cons_of_append hsteps htail (by simp [Path.above])
      rw [List.cons_append, walk_up (not_not.mp hdir), ih h hrest]
  | case7 links loc step rest hslash hdir hhere habove hshort hnone
  | case8 links loc step rest hslash hdir hhere habove hshort hnone =>
      simp only [Bool.or_eq_true, decide_eq_true_eq, not_or] at hhere
      obtain ⟨more, rfl, -⟩ := exists_cons_of_append hsteps htail (by simp [hhere.1])
      rw [List.cons_append, walk_enterable (not_not.mp hdir) ⟨hhere.1, hhere.2, habove, not_lt.mp hshort⟩, hnone]
      exact if_neg (hlast more)
  | case9 links loc step rest hslash hdir hhere habove hshort target hlink hfollow => simp at hfollow
  | case11 loc step rest hslash hdir hhere habove hshort target hlink hfollow links ih =>
      simp only [Bool.or_eq_true, decide_eq_true_eq, not_or] at hhere
      obtain ⟨more, rfl, hrest⟩ := exists_cons_of_append hsteps htail (by simp [hhere.1])
      have htarget : target.steps ++ (more ++ tail) = (target.steps ++ more) ++ tail := (List.append_assoc ..).symm
      rw [List.cons_append, walk_through (not_not.mp hdir) ⟨hhere.1, hhere.2, habove, not_lt.mp hshort⟩ hlink,
        ← List.append_assoc]
      exact ih h (hrest ▸ htarget)
  | case12 links loc step rest hslash hdir hhere habove hshort entry hlink hentry ih =>
      simp only [Bool.or_eq_true, decide_eq_true_eq, not_or] at hhere
      obtain ⟨more, rfl, hrest⟩ := exists_cons_of_append hsteps htail (by simp [hhere.1])
      rw [List.cons_append, walk_enter (not_not.mp hdir) ⟨hhere.1, hhere.2, habove, not_lt.mp hshort⟩ hentry hlink,
        ih h hrest]

/-! ### From an entry to its directory -/

/-- What is reached by a name is reached from a directory, to which the steps before the name lead. -/
theorem Leads.exists_dir {steps front tail : List Name} (h : tree.Leads true links loc steps place)
    (hsteps : steps = front ++ [name]) (hname : Path.Plain name) (htail : tail.all List.isEmpty) :
    ∃ left dir slash, tree.Leads true links loc (front ++ tail) (.at dir slash) ∧ tree.get? dir = some .dir ∧
      tree.Leads true left dir [name] place := by
  induction h generalizing front with
  | done => simp at hsteps
  | @slash _ _ rest hrest =>
      have hmem : name ∈ [] :: rest := by simp [hsteps]
      have hall : ([] :: rest).all List.isEmpty := by simpa using hrest
      exact absurd (List.isEmpty_iff.mp (List.all_eq_true.mp hall name hmem)) hname.ne_nil
  | @stay links loc step rest _ hslash hdir hstep _ ih =>
      rcases List.cons_eq_append_iff.mp hsteps with ⟨-, hlast⟩ | ⟨more, rfl, hrest⟩
      · rw [(List.cons_eq_cons.mp hlast).1] at hname
        exact absurd hstep (by simp [hname.ne_nil, hname.ne_here])
      · obtain ⟨left, dir, slash, hleads, hfound⟩ := ih hrest
        by_cases hend : step = [] ∧ (more ++ tail).all List.isEmpty
        · obtain rfl := hleads.eq_of_isEmpty hend.2
          exact ⟨left, dir, true, by rw [hend.1]; exact .slash hend.2, hfound⟩
        · exact ⟨left, dir, slash, .stay hend hdir hstep hleads, hfound⟩
  | up hdir _ ih =>
      rcases List.cons_eq_append_iff.mp hsteps with ⟨-, hlast⟩ | ⟨more, rfl, hrest⟩
      · exact absurd (List.cons_eq_cons.mp hlast).1 hname.ne_above
      · obtain ⟨left, dir, slash, hleads, hfound⟩ := ih hrest
        exact ⟨left, dir, slash, .up hdir hleads, hfound⟩
  | @free links loc step rest hdir hstep hnone hrest =>
      rcases List.cons_eq_append_iff.mp hsteps with ⟨rfl, hlast⟩ | ⟨more, -, hmore⟩
      · obtain ⟨rfl, rfl⟩ := List.cons_eq_cons.mp hlast
        obtain ⟨slash, hleads⟩ := leads_isEmpty htail
        exact ⟨links, loc, slash, hleads, hdir, .free hdir hstep hnone rfl⟩
      · rw [hmore] at hrest
        simp [hname.ne_nil] at hrest
  | link _ _ _ hfollow _ => cases hfollow
  | @through links loc step rest target _ hdir hstep hlink hfollow next ih =>
      rcases List.cons_eq_append_iff.mp hsteps with ⟨rfl, hlast⟩ | ⟨more, rfl, hrest⟩
      · obtain ⟨rfl, rfl⟩ := List.cons_eq_cons.mp hlast
        obtain ⟨slash, hleads⟩ := leads_isEmpty htail
        exact ⟨links + 1, loc, slash, hleads, hdir, .through hdir hstep hlink hfollow next⟩
      · have htarget : target.steps ++ (more ++ [name]) = (target.steps ++ more) ++ [name] := (List.append_assoc ..).symm
        obtain ⟨left, dir, slash, hleads, hfound⟩ := ih (hrest ▸ htarget)
        rw [List.append_assoc] at hleads
        exact ⟨left, dir, slash, .through hdir hstep hlink (by simp) hleads, hfound⟩
  | @enter links loc step rest _ _ hdir hstep hentry hlink next ih =>
      rcases List.cons_eq_append_iff.mp hsteps with ⟨rfl, hlast⟩ | ⟨more, rfl, hrest⟩
      · obtain ⟨rfl, rfl⟩ := List.cons_eq_cons.mp hlast
        obtain ⟨slash, hleads⟩ := leads_isEmpty htail
        exact ⟨links, loc, slash, hleads, hdir, .enter hdir hstep hentry hlink next⟩
      · obtain ⟨left, dir, slash, hleads, hfound⟩ := ih hrest
        exact ⟨left, dir, slash, .enter hdir hstep hentry hlink hleads, hfound⟩

/-- A name that is no link leads to the entry of that name. -/
theorem Leads.eq_of_plain (h : tree.Leads true links loc [name] (.at found slash)) (hname : Path.Plain name)
    (hclear : ∀ loc, tree.Clear loc) : found = loc ++ [name] ∧ name.length ≤ nameLimit := by
  cases h with
  | slash => exact absurd rfl hname.ne_nil
  | stay _ _ hstep => exact absurd hstep (by simp [hname.ne_nil, hname.ne_here])
  | up => exact absurd rfl hname.ne_above
  | link _ _ _ hfollow => cases hfollow
  | through _ _ hlink => exact absurd hlink ((hclear _).not_link _)
  | enter _ hstep _ _ next =>
      cases next
      exact ⟨rfl, hstep.short⟩

/-! ### Paths into a directory -/

variable {dir : Path}

theorem steps_eq (dir : Path) : ∃ tail, dir.steps = dir.names ++ tail ∧ tail.all List.isEmpty := by
  refine ⟨if dir.getLast? = some Path.slash then [[]] else [], rfl, ?_⟩
  split_ifs <;> rfl

theorem start_join (hdir : dir ≠ []) (hname : Path.Plain name) : tree.start (dir.join name) = tree.start dir := by
  rw [start, start, Path.isAbsolute_join hdir hname.noSlash]

/-- A path to a name is walked from where the path of its directory leads. -/
theorem place_join_of_dir {loc : Location} (hloc : tree.locate dir = .ok loc) (hdir : tree.get? loc = some .dir)
    (hname : Path.Plain name) :
    ∃ left, tree.place true (dir.join name) =
      if (dir.join name).contains 0 then .error .zeroByte
      else if pathLimit ≤ (dir.join name).length then .error (.os .nameTooLong)
      else (tree.walk true left loc [name]).mapError .os := by
  obtain ⟨slash, hreach, -⟩ := locate_eq_ok_iff.mp hloc
  obtain ⟨tail, hsteps, htail⟩ := steps_eq dir
  obtain ⟨left, hleft⟩ := hreach.leads.walk_from hsteps htail hdir
  refine ⟨left, ?_⟩
  rw [place, ← start, start_join hreach.ne_nil hname, Path.steps_join hname.ne_nil hname.noSlash, hleft name hname.ne_nil,
    if_neg (Path.join_ne_nil hreach.ne_nil hname.noSlash)]

/-- A file in a directory is read by its name alone, from wherever the directory is, unless the name is a link. -/
theorem readFile_join {loc : Location} (hloc : tree.locate dir = .ok loc) (hdir : tree.get? loc = some .dir)
    (hlink : ∀ target, tree.get? (loc ++ [name]) ≠ some (.link target)) (hname : Path.Plain name) :
    tree.readFile (dir.join name) =
      if (dir.join name).contains 0 then .error .zeroByte
      else if pathLimit ≤ (dir.join name).length ∨ nameLimit < name.length then .error (.os .nameTooLong)
      else
        match tree.get? (loc ++ [name]) with
        | none => .error (.os .noEntry)
        | some (.file content) => .ok content
        | some _ => .error (.os .isDirectory) := by
  obtain ⟨left, hplace⟩ := place_join_of_dir hloc hdir hname
  rw [readFile, locate, hplace]
  split_ifs with hzero hlong hlong' hlong'
  · rfl
  · rfl
  · exact absurd (Or.inl hlong) hlong'
  · rw [walk_long hdir hname (hlong'.resolve_left hlong)]
    rfl
  · rw [not_or] at hlong'
    rw [walk_enterable hdir ⟨hname.ne_nil, hname.ne_here, hname.ne_above, not_lt.mp hlong'.2⟩]
    cases hget : tree.get? (loc ++ [name]) with
    | none => rfl
    | some entry =>
        cases entry with
        | link target => exact absurd hget (hlink target)
        | dir =>
            simp only [walk, Except.mapError, bind, Except.bind]
            rw [if_neg (by simp)]
            simp only [hget]
        | file content =>
            simp only [walk, Except.mapError, bind, Except.bind]
            rw [if_neg (by simp)]
            simp only [hget]

theorem nowhere_of_locate (hdir : dir ≠ []) (h : tree.locate dir = .error (.os .noEntry)) :
    Nowhere (tree.walk true linkLimit (tree.start dir) dir.steps) := by
  rw [locate, place, if_neg hdir, ← start] at h
  split_ifs at h with hzero hlong
  · cases h
  · cases h
  · cases hwalk : tree.walk true linkLimit (tree.start dir) dir.steps with
    | error e =>
        rw [hwalk] at h
        cases h
        rfl
    | ok place =>
        rw [hwalk] at h
        cases place with
        | free => trivial
        | «at» found slash =>
            simp only [Except.mapError, bind, Except.bind] at h
            split_ifs at h
            cases h

/-- No path leads into a directory that is missing. -/
theorem place_join_of_missing (hdir : dir ≠ []) (h : tree.locate dir = .error (.os .noEntry)) (hname : Path.Plain name) :
    tree.place true (dir.join name) =
      if (dir.join name).contains 0 then .error .zeroByte
      else if pathLimit ≤ (dir.join name).length then .error (.os .nameTooLong)
      else .error (.os .noEntry) := by
  obtain ⟨tail, hsteps, htail⟩ := steps_eq dir
  have hwalk := walk_noEntry (nowhere_of_locate hdir h) hsteps htail hname.ne_nil
  rw [place, ← start, start_join hdir hname, Path.steps_join hname.ne_nil hname.noSlash, hwalk,
    if_neg (Path.join_ne_nil hdir hname.noSlash)]
  rfl

/-- What a path to a name reaches is reached from the directory, which is there. -/
theorem Reaches.exists_dir (h : tree.Reaches true (dir.join name) place) (hdir : dir ≠ []) (hname : Path.Plain name) :
    ∃ left loc, tree.locate dir = .ok loc ∧ tree.get? loc = some .dir ∧ tree.Leads true left loc [name] place := by
  obtain ⟨tail, hsteps, htail⟩ := steps_eq dir
  have hleads := h.leads
  rw [start_join hdir hname, Path.steps_join hname.ne_nil hname.noSlash] at hleads
  obtain ⟨left, loc, slash, hfound, hget, hentry⟩ := hleads.exists_dir rfl hname htail
  have hfront : dir <+: dir.join name := by
    rw [Path.join_of_not_mem hname.noSlash]
    split_ifs <;> exact List.prefix_append _ _
  have hzero : dir.contains 0 = false := by
    have hjoin := h.noZero
    rw [Bool.eq_false_iff, ne_eq, List.contains_iff_mem] at hjoin ⊢
    exact fun hmem => hjoin (hfront.subset hmem)
  refine ⟨left, loc, locate_eq_ok_iff.mpr ⟨slash, ⟨hzero, hdir, ?_, ?_⟩, fun _ => hget⟩, hget, hentry⟩
  · exact hfront.length_le.trans_lt h.short
  · rw [hsteps]
    exact hfound

/-- Without links, the file that a path to a name reaches stands in the directory under that name. -/
theorem exists_dir_of_readFile {content : Bytes} (h : tree.readFile (dir.join name) = .ok content) (hdir : dir ≠ [])
    (hname : Path.Plain name) (hclear : ∀ loc, tree.Clear loc) :
    ∃ loc, tree.locate dir = .ok loc ∧ tree.get? loc = some .dir ∧ tree.get? (loc ++ [name]) = some (.file content) ∧
      name.length ≤ nameLimit := by
  obtain ⟨found, hfile, hcontent⟩ := readFile_eq_ok_iff.mp h
  obtain ⟨slash, hreach, -⟩ := locate_eq_ok_iff.mp hfile
  obtain ⟨left, loc, hloc, hget, hentry⟩ := hreach.exists_dir hdir hname
  obtain ⟨rfl, hshort⟩ := hentry.eq_of_plain hname hclear
  exact ⟨loc, hloc, hget, hcontent, hshort⟩

end RouteBook.FileTree
