import RouteBook.Proofs.FileTree.Changes
import RouteBook.Proofs.FileTree.Paths

/-! Trees without symbolic links. There a path has one reading: a name at its end is the last name of the
location that it leads to, since no step is taken through a link's target. -/

namespace RouteBook.FileTree

variable {tree : FileTree} {follow : Bool} {links : Nat} {loc found : Location} {place : Place}

/-- Steps that end with a proper name lead to a location of that name. -/
theorem Leads.getLast?_location {steps front : List Name} {name : Name}
    (h : tree.Leads true links loc steps place) (hsteps : steps = front ++ [name])
    (hclear : ∀ loc, tree.Clear loc) (hname : Path.Plain name) : place.location.getLast? = some name := by
  obtain ⟨hnil, hhere, habove, -⟩ := hname
  induction h generalizing front with
  | done => simp at hsteps
  | @slash _ _ rest hrest =>
      have hmem : name ∈ [] :: rest := by simp [hsteps]
      rcases List.mem_cons.mp hmem with heq | hmem
      · exact absurd heq hnil
      · exact absurd (List.isEmpty_iff.mp (List.all_eq_true.mp hrest name hmem)) hnil
  | @stay _ _ first _ _ _ _ hname _ ih =>
      cases front with
      | nil =>
          obtain ⟨rfl, rfl⟩ := List.cons_eq_cons.mp hsteps
          exact absurd hname (by simp [hnil, hhere])
      | cons head front => exact ih (List.cons_eq_cons.mp hsteps).2
  | up _ _ ih =>
      cases front with
      | nil => exact absurd (List.cons_eq_cons.mp hsteps).1.symm habove
      | cons head front => exact ih (List.cons_eq_cons.mp hsteps).2
  | @free _ dir first rest _ hname _ hrest =>
      cases front with
      | nil =>
          obtain ⟨rfl, rfl⟩ := List.cons_eq_cons.mp hsteps
          simp [Place.location]
      | cons head front =>
          rw [(List.cons_eq_cons.mp hsteps).2] at hrest
          simp [hnil] at hrest
  | link _ _ _ hfollow _ => cases hfollow
  | through _ _ hlink _ _ _ => exact absurd hlink ((hclear _).not_link _)
  | @enter _ _ _ rest _ _ _ _ _ _ next ih =>
      cases front with
      | nil =>
          obtain ⟨rfl, rfl⟩ := List.cons_eq_cons.mp hsteps
          cases next
          simp [Place.location]
      | cons head front => exact ih (List.cons_eq_cons.mp hsteps).2

/-- What a path into a directory leads to has the name that the path ends with. -/
theorem getLast?_of_locate_join {dir : Path} {name : Name} (h : tree.locate (dir.join name) = .ok loc)
    (hclear : ∀ loc, tree.Clear loc) (hname : Path.Plain name) : loc.getLast? = some name := by
  obtain ⟨slash, hreach, -⟩ := locate_eq_ok_iff.mp h
  exact hreach.leads.getLast?_location (Path.steps_join hname.ne_nil hname.noSlash) hclear hname

/-- Steps that end in dots or slashes lead to a directory, or they say so. -/
theorem Leads.dir_of_dots {steps front rest : List Name} {slash : Bool}
    (h : tree.Leads true links loc steps (.at found slash)) (hsteps : steps = front ++ rest) (hrest : rest ≠ [])
    (hdots : ∀ step ∈ rest, step = [] ∨ step = Path.here) (hclear : ∀ loc, tree.Clear loc) :
    tree.get? found = some .dir ∨ slash = true := by
  generalize hplace : Place.at found slash = place at h
  induction h generalizing front rest with
  | done => exact absurd (List.append_eq_nil_iff.mp hsteps.symm).2 hrest
  | slash =>
      cases hplace
      exact Or.inr rfl
  | @stay _ _ _ more _ _ hdir _ next ih =>
      rcases List.cons_eq_append_iff.mp hsteps with ⟨rfl, hlast⟩ | ⟨front, rfl, hmore⟩
      · by_cases hmore : more = []
        · subst hmore
          cases next
          cases hplace
          exact Or.inl hdir
        · exact ih (List.nil_append more).symm hmore (fun step hstep => hdots step (by simp [hlast, hstep])) hplace
      · exact ih hmore hrest hdots hplace
  | up _ _ ih =>
      rcases List.cons_eq_append_iff.mp hsteps with ⟨rfl, hlast⟩ | ⟨front, rfl, hmore⟩
      · exact absurd (hdots Path.above (by simp [hlast])) (by decide)
      · exact ih hmore hrest hdots hplace
  | free => cases hplace
  | link _ _ _ hfollow _ => cases hfollow
  | through _ _ hlink => exact absurd hlink ((hclear _).not_link _)
  | @enter _ _ name _ _ _ _ hname _ _ _ ih =>
      rcases List.cons_eq_append_iff.mp hsteps with ⟨rfl, hlast⟩ | ⟨front, rfl, hmore⟩
      · exact absurd (hdots name (by simp [hlast])) (by simp [hname.ne_nil, hname.ne_here])
      · exact ih hmore hrest hdots hplace

/-- A file stands under the file name of any path that leads to it. -/
theorem getLast?_of_fileName? {path : Path} {name : Name} (h : tree.locate path = .ok loc)
    (hfile : tree.get? loc ≠ some .dir) (hname : path.fileName? = some name) (hclear : ∀ loc, tree.Clear loc) :
    loc.getLast? = some name := by
  obtain ⟨slash, hreach, hslash⟩ := locate_eq_ok_iff.mp h
  obtain ⟨front, tail, hpieces, hplain, htail⟩ := Path.pieces_of_fileName? hname
  have hsteps : ∃ rest, path.steps = (front.filter (· ≠ []) ++ [name]) ++ rest ∧
      ∀ step ∈ rest, step = [] ∨ step = Path.here := by
    refine ⟨tail.filter (· ≠ []) ++ if path.getLast? = some Path.slash then [[]] else [], ?_, fun step hstep => ?_⟩
    · rw [Path.steps, hpieces, List.filter_append, List.filter_cons_of_pos (by simpa using hplain.ne_nil)]
      simp only [List.append_assoc, List.cons_append, List.nil_append]
    · rcases List.mem_append.mp hstep with hstep | hstep
      · exact htail step (List.mem_filter.mp hstep).1
      · split_ifs at hstep
        · exact Or.inl (List.mem_singleton.mp hstep)
        · cases hstep
  obtain ⟨rest, hsteps, hdots⟩ := hsteps
  by_cases hrest : rest = []
  · rw [hrest, List.append_nil] at hsteps
    exact hreach.leads.getLast?_location hsteps hclear hplain
  · exact absurd ((hreach.leads.dir_of_dots hsteps hrest hdots hclear).elim id hslash) hfile

/-- Slashes alone lead nowhere. -/
theorem Leads.eq_of_isEmpty {steps : List Name} {slash : Bool} (h : tree.Leads true links loc steps (.at found slash))
    (hsteps : steps.all List.isEmpty) : found = loc := by
  cases h with
  | done => rfl
  | slash => rfl
  | stay hslash => exact absurd (by simpa using hsteps) hslash
  | up => simp [Path.above] at hsteps
  | link _ _ _ hfollow => cases hfollow
  | through _ hname => simp [hname.ne_nil] at hsteps
  | enter _ hname => simp [hname.ne_nil] at hsteps

/-! ### Names in a directory -/

/-- What stands under a name in a location is the first of its children of that name. -/
theorem get?_append_singleton (tree : FileTree) (loc : Location) (name : Name) :
    tree.get? (loc ++ [name]) = (tree.children loc).lookup name := by
  rw [get?_of_ne_nil _ (by simp), children]
  induction tree.entries with
  | nil => rfl
  | cons item rest ih =>
      obtain ⟨place, entry⟩ := item
      by_cases heq : place = loc ++ [name]
      · have hafter : Text.after? loc place = some [name] := Text.after?_eq_some_iff.mpr heq
        rw [heq, List.lookup_cons_self, ← heq, List.filterMap_cons]
        simp only [hafter, List.lookup_cons_self]
      · rw [List.lookup_cons, beq_eq_false_iff_ne.mpr (Ne.symm heq), List.filterMap_cons]
        simp only [ih]
        split
        · rfl
        · next found hfound =>
          have hother : name ≠ found.1 := by
            rintro rfl
            split at hfound
            · next other hafter =>
              cases hfound
              exact heq (Text.after?_eq_some_iff.mp hafter)
            · cases hfound
          rw [List.lookup_cons, beq_eq_false_iff_ne.mpr hother]

end RouteBook.FileTree
