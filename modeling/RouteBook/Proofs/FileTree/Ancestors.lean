import RouteBook.Proofs.FileTree.Directories

/-! The directories around a directory. Their paths are made of its first components. In a tree without links, and if no
component leads back up, a path leads where its names say one after another; so the directories around a directory lie on
the way to it, and none of them lies in it. -/

namespace RouteBook

namespace Path

variable {path dir : Path} {name : Name} {first : Component} {more : List Component}

/-! ### Components -/

/-- The name that a component is taken as a step by. -/
def Component.step? : Component → Option Name
  | .root | .current => none
  | .parent => some above
  | .normal name => some name

/-- The names that a path is taken along, without the pieces that lead nowhere. -/
def way (path : Path) : List Name := path.pieces.filter fun piece => piece ≠ [] ∧ piece ≠ here

theorem way_eq (path : Path) : path.way = path.components.filterMap Component.step? := by
  have hpieces : (path.pieces.filterMap component?).filterMap Component.step? = path.way := by
    rw [List.filterMap_filterMap, way, ← List.filterMap_eq_filter]
    congr 1
    funext piece
    unfold component?
    by_cases hnone : piece = [] ∨ piece = here
    · rw [if_pos (by simpa using hnone)]
      rcases hnone with rfl | rfl <;> rfl
    · rw [if_neg (by simpa using hnone)]
      rw [not_or] at hnone
      split_ifs with habove
      · rw [habove]
        rfl
      · simp [Component.step?, Option.guard, hnone]
  rw [components, ← hpieces]
  split_ifs <;> rfl

theorem head?_components (path : Path) : path.components.head? = some .root ↔ path.isAbsolute = true := by
  have hnamed : (path.pieces.filterMap component?).head? ≠ some .root := by
    intro hhead
    obtain ⟨piece, -, hroot⟩ := List.mem_filterMap.mp (List.mem_of_head? hhead)
    unfold component? at hroot
    split_ifs at hroot <;> cases hroot
  rw [components]
  split_ifs with habsolute
  · simp [habsolute]
  · simp [habsolute]
  · exact ⟨fun hroot => absurd hroot hnamed, fun habs => absurd habs habsolute⟩

theorem parent_mem_components (h : above ∈ path.pieces) : .parent ∈ path.components :=
  (mem_components_iff (by simp) (by simp)).mpr ⟨above, h, rfl⟩

/-! ### Paths made of components -/

theorem ofComponents_cons (first : Component) (more : List Component) :
    ofComponents (first :: more) = first.text ++ (more.map Component.text).flatMap (slash :: ·) := by
  rw [ofComponents]
  induction more generalizing first with
  | nil => simp
  | cons next more ih =>
      rw [List.map_cons, List.map_cons, List.intercalate_cons_cons, ← List.map_cons, ih]
      simp

/-- The pieces of a path that is made of the components of another are these components. -/
theorem pieces_ofComponents (h : first :: more ⊆ dir.components) :
    (ofComponents (first :: more)).pieces = (first :: more).map Component.text := by
  have hsolid : ∀ part ∈ first :: more, slash ∉ part.text := by
    intro part hpart
    cases part with
    | root => exact List.not_mem_nil
    | current => decide
    | parent => decide
    | normal name => exact (plain_of_mem_components (h hpart)).noSlash
  refine Text.pieces_eq_cons_iff.mpr ⟨ofComponents_cons first more, hsolid first List.mem_cons_self, fun piece hpiece => ?_⟩
  obtain ⟨part, hpart, rfl⟩ := List.mem_map.mp hpiece
  exact hsolid part (List.mem_cons_of_mem first hpart)

theorem way_ofComponents (h : first :: more ⊆ dir.components) :
    (ofComponents (first :: more)).way = (first :: more).filterMap Component.step? := by
  rw [way, pieces_ofComponents h, List.filter_map, ← List.filterMap_eq_filter, List.map_filterMap]
  refine List.filterMap_congr fun part hpart => ?_
  cases part with
  | root | current | parent => rfl
  | normal name =>
      have hname := plain_of_mem_components (h hpart)
      simp [Component.step?, Component.text, Option.guard, hname.ne_nil, hname.ne_here]

theorem isAbsolute_ofComponents (h : first :: more <+: dir.components) (hroot : first :: more ≠ [.root]) :
    (ofComponents (first :: more)).isAbsolute = dir.isAbsolute := by
  have hhead : dir.components.head? = some first := by
    obtain ⟨rest, hrest⟩ := h
    rw [← hrest]
    rfl
  have hdir := head?_components dir
  rw [hhead, Option.some.injEq] at hdir
  rw [isAbsolute, ofComponents_cons]
  cases first with
  | root =>
      cases more with
      | nil => exact absurd rfl hroot
      | cons next more => simp [Component.text, hdir.mp rfl]
  | current | parent => simp [Component.text, here, above, dot, slash, ← Bool.not_eq_true, ← hdir]
  | normal name =>
      have hname := plain_of_mem_components (h.subset List.mem_cons_self)
      obtain ⟨b, rest, rfl⟩ := List.exists_cons_of_ne_nil hname.ne_nil
      have hb : b ≠ slash := fun heq => hname.noSlash (by simp [heq])
      simp [Component.text, hb, ← Bool.not_eq_true, ← hdir]

/-! ### Paths around a path -/

theorem exists_of_mem_outward {parts : List Component} (h : path ∈ outward parts) :
    ∃ part outer, part :: outer <:+ parts ∧ part :: outer ≠ [.root] ∧ path = ofComponents (part :: outer).reverse := by
  fun_induction outward parts with
  | case1 => cases h
  | case2 => cases h
  | case3 part outer hroot ih =>
      rcases List.mem_cons.mp h with rfl | h
      · exact ⟨part, outer, List.suffix_rfl, fun heq => by simp_all, rfl⟩
      · obtain ⟨inner, rest, hsuffix, hother⟩ := ih h
        exact ⟨inner, rest, hsuffix.trans (List.suffix_cons part outer), hother⟩

/-- A directory around a path is written with the first components of the path. -/
theorem exists_of_mem_ancestors (h : path ∈ dir.ancestors) : path = dir ∨
    ∃ first more, first :: more <+: dir.components ∧ first :: more ≠ [.root] ∧ path = ofComponents (first :: more) := by
  rw [ancestors] at h
  split at h
  · cases h
  · next inner outer houtward =>
    refine (List.mem_cons.mp h).imp_right fun hpath => ?_
    obtain ⟨part, rest, hsuffix, hroot, rfl⟩ := exists_of_mem_outward (houtward ▸ List.mem_cons_of_mem inner hpath)
    obtain ⟨first, more, hreverse⟩ := List.exists_cons_of_ne_nil (List.reverse_ne_nil_iff.mpr (List.cons_ne_nil part rest))
    refine ⟨first, more, ?_, ?_, by rw [hreverse]⟩
    · rw [← hreverse, ← List.reverse_reverse dir.components]
      exact List.reverse_prefix.mpr hsuffix
    · rw [← hreverse]
      intro heq
      exact hroot (List.reverse_injective heq)

/-- A directory around a path is reached from the same place, by the first names on the way. -/
theorem way_of_mem_ancestors (h : path ∈ dir.ancestors) :
    path.isAbsolute = dir.isAbsolute ∧ path.way <+: dir.way ∧ (above ∈ path.pieces → .parent ∈ dir.components) := by
  obtain rfl | ⟨first, more, hprefix, hroot, rfl⟩ := exists_of_mem_ancestors h
  · exact ⟨rfl, List.prefix_rfl, parent_mem_components⟩
  · refine ⟨isAbsolute_ofComponents hprefix hroot, ?_, fun habove => ?_⟩
    · rw [way_ofComponents hprefix.subset, way_eq]
      exact hprefix.filterMap _
    · rw [pieces_ofComponents hprefix.subset] at habove
      obtain ⟨part, hpart, htext⟩ := List.mem_map.mp habove
      have hmem := hprefix.subset hpart
      cases part with
      | root | current => cases htext
      | parent => exact hmem
      | normal name => exact absurd htext (plain_of_mem_components hmem).ne_above

end Path

namespace FileTree

variable {tree : FileTree} {links : Nat} {loc found : Location} {path dir : Path} {name : Name}

/-- Steps that do not lead up lead where their names say. -/
theorem Leads.location_eq {steps : List Name} {place : Place} (h : tree.Leads true links loc steps place)
    (habove : Path.above ∉ steps) (hclear : ∀ loc, tree.Clear loc) :
    place.location = loc ++ steps.filter fun step => step ≠ [] ∧ step ≠ Path.here := by
  have hempty : ∀ {rest : List Name}, rest.all List.isEmpty →
      (rest.filter fun step => step ≠ [] ∧ step ≠ Path.here) = [] := by
    intro rest hrest
    rw [List.filter_eq_nil_iff]
    intro step hstep
    simp [List.isEmpty_iff.mp (List.all_eq_true.mp hrest step hstep)]
  induction h with
  | done => exact (List.append_nil _).symm
  | slash hrest => rw [List.filter_cons_of_neg (by simp), hempty hrest, List.append_nil]; rfl
  | stay _ _ hstep _ ih =>
      rw [List.filter_cons_of_neg (by rcases hstep with rfl | rfl <;> simp)]
      exact ih fun hmem => habove (List.mem_cons_of_mem _ hmem)
  | up => exact absurd List.mem_cons_self habove
  | free _ hstep _ hrest =>
      rw [List.filter_cons_of_pos (by simp [hstep.ne_nil, hstep.ne_here]), hempty hrest]
      rfl
  | link _ _ _ hfollow => cases hfollow
  | through _ _ hlink => exact absurd hlink ((hclear _).not_link _)
  | enter _ hstep _ _ _ ih =>
      rw [List.filter_cons_of_pos (by simp [hstep.ne_nil, hstep.ne_here]), ih fun hmem => habove (List.mem_cons_of_mem _ hmem),
        List.append_assoc, List.singleton_append]

/-- A path without steps up leads along its way. -/
theorem location_of_locate (h : tree.locate path = .ok loc) (habove : Path.above ∉ path.pieces)
    (hclear : ∀ loc, tree.Clear loc) : loc = tree.start path ++ path.way := by
  obtain ⟨slash, hreach, -⟩ := locate_eq_ok_iff.mp h
  have hsteps : (path.steps.filter fun step => step ≠ [] ∧ step ≠ Path.here) = path.way := by
    have hend : ((if path.getLast? = some Path.slash then [[]] else []).filter fun step : Name =>
        step ≠ [] ∧ step ≠ Path.here) = [] := by
      split_ifs <;> rfl
    rw [Path.steps, List.filter_append, hend, List.append_nil, List.filter_filter, Path.way]
    refine List.filter_congr fun piece _ => ?_
    by_cases hempty : piece = [] <;> simp [hempty]
  have hmem : Path.above ∉ path.steps := by
    rw [Path.steps, List.mem_append, not_or]
    refine ⟨fun hpiece => habove (List.mem_filter.mp hpiece).1, ?_⟩
    split_ifs <;> decide
  rw [← hsteps]
  exact hreach.leads.location_eq hmem hclear

/-- No directory around a directory is an entry of it. -/
theorem locate_join_ne_of_ancestor (hpath : path ∈ dir.ancestors) (hparent : .parent ∉ dir.components)
    (hlocate : tree.locate path = .ok found) (hname : Path.Plain name) (hclear : ∀ loc, tree.Clear loc) :
    tree.locate (dir.join name) ≠ .ok found := by
  intro hjoin
  have hdir : dir ≠ [] := by
    rintro rfl
    cases hpath
  obtain ⟨slash, hreach, -⟩ := locate_eq_ok_iff.mp hjoin
  obtain ⟨left, loc, hloc, -, hentry⟩ := hreach.exists_dir hdir hname
  obtain ⟨rfl, -⟩ := hentry.eq_of_plain hname hclear
  obtain ⟨habsolute, hway, hup⟩ := Path.way_of_mem_ancestors hpath
  have hstart : tree.start path = tree.start dir := by rw [start, start, habsolute]
  have houter := location_of_locate hlocate (fun habove => hparent (hup habove)) hclear
  have hinner := location_of_locate hloc (fun habove => hparent (Path.parent_mem_components habove)) hclear
  have hlength := hway.length_le
  have houter' := congrArg List.length houter
  rw [hinner, hstart] at houter'
  simp only [List.length_append, List.length_singleton] at houter'
  omega

end FileTree

end RouteBook
