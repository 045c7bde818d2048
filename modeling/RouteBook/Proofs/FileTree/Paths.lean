import RouteBook.FileTree.Path
import RouteBook.Proofs.Text.Ascii

/-! Paths taken apart at their slashes. A name without a slash that is joined to a directory is the last step
of the path, whatever the directory is written like, so two names that differ give two paths that differ. The
names that a path is made of never hold a slash. -/

namespace RouteBook

namespace Text

variable {α : Type} [DecidableEq α] {separator : α}

theorem pieces_ne_nil (separator : α) (text : List α) : pieces separator text ≠ [] := by
  cases text with
  | nil => simp [pieces]
  | cons c rest =>
      rw [pieces]
      split_ifs
      · simp
      · split <;> simp

theorem pieces_append (separator : α) (front back : List α) :
    pieces separator (front ++ separator :: back) = pieces separator front ++ pieces separator back := by
  induction front with
  | nil => simp [pieces]
  | cons c front ih =>
      rw [List.cons_append, pieces, pieces]
      split_ifs with h
      · rw [ih, List.cons_append]
      · rw [ih]
        cases hpieces : pieces separator front with
        | nil => exact absurd hpieces (pieces_ne_nil separator front)
        | cons piece more => rfl

theorem pieces_of_not_mem {text : List α} (h : separator ∉ text) : pieces separator text = [text] := by
  induction text with
  | nil => rfl
  | cons c rest ih =>
      rw [List.mem_cons, not_or] at h
      rw [pieces, if_neg (Ne.symm h.1), ih h.2]

/-- A piece holds no separator. -/
theorem not_mem_of_mem_pieces {text piece : List α} (h : piece ∈ pieces separator text) : separator ∉ piece := by
  induction text generalizing piece with
  | nil =>
      rw [pieces, List.mem_singleton] at h
      simp [h]
  | cons c rest ih =>
      rw [pieces] at h
      split_ifs at h with hc
      · rcases List.mem_cons.mp h with rfl | h
        · simp
        · exact ih h
      · cases hpieces : pieces separator rest with
        | nil => exact absurd hpieces (pieces_ne_nil separator rest)
        | cons first more =>
            rw [hpieces] at h ih
            rcases List.mem_cons.mp h with rfl | h
            · rw [List.mem_cons, not_or]
              exact ⟨Ne.symm hc, ih List.mem_cons_self⟩
            · exact ih (List.mem_cons_of_mem first h)

/-- Pieces with a separator after each of them are the list they were cut from, with one more separator. -/
theorem flatMap_pieces (separator : α) (text : List α) :
    ((pieces separator text).flatMap fun piece => piece ++ [separator]) = text ++ [separator] := by
  induction text with
  | nil => simp [pieces]
  | cons c rest ih =>
      rw [pieces]
      split_ifs with hc
      · rw [List.flatMap_cons, ih, hc]
        rfl
      · cases hpieces : pieces separator rest with
        | nil => exact absurd hpieces (pieces_ne_nil separator rest)
        | cons piece more =>
            rw [hpieces, List.flatMap_cons] at ih
            simp only [List.flatMap_cons, List.cons_append]
            rw [ih]

/-- The pieces of a list are the lists without separators that it is made of. -/
theorem pieces_eq_cons_iff {text first : List α} {more : List (List α)} : pieces separator text = first :: more ↔
    text = first ++ more.flatMap (separator :: ·) ∧ separator ∉ first ∧ ∀ piece ∈ more, separator ∉ piece := by
  constructor
  · intro h
    have hsolid : ∀ piece ∈ first :: more, separator ∉ piece := fun piece hpiece =>
      not_mem_of_mem_pieces (h ▸ hpiece)
    have hshift : ∀ pieces : List (List α), separator :: pieces.flatMap (· ++ [separator]) =
        pieces.flatMap (separator :: ·) ++ [separator] := by
      intro pieces
      induction pieces with
      | nil => rfl
      | cons piece pieces ih => simp [ih]
    have hjoin := flatMap_pieces separator text
    rw [h, List.flatMap_cons, List.append_assoc, List.singleton_append, hshift, ← List.append_assoc] at hjoin
    exact ⟨(List.append_cancel_right hjoin).symm, List.forall_mem_cons.mp hsolid⟩
  · rintro ⟨rfl, hfirst, hmore⟩
    induction more generalizing first with
    | nil => rw [List.flatMap_nil, List.append_nil, pieces_of_not_mem hfirst]
    | cons piece more ih =>
        rw [List.forall_mem_cons] at hmore
        rw [List.flatMap_cons, List.cons_append, pieces_append, pieces_of_not_mem hfirst, ih hmore.1 hmore.2]
        rfl

theorem subset_of_mem_pieces {text piece : List α} (h : piece ∈ pieces separator text) : piece ⊆ text := by
  intro c hc
  have hmem : c ∈ text ++ [separator] := by
    rw [← flatMap_pieces separator text, List.mem_flatMap]
    exact ⟨piece, h, List.mem_append_left _ hc⟩
  rcases List.mem_append.mp hmem with hmem | hmem
  · exact hmem
  · rw [List.mem_singleton] at hmem
    exact absurd (hmem ▸ hc) (not_mem_of_mem_pieces h)

/-- A first piece is empty only where a list is empty or starts with a separator. -/
theorem head?_pieces_eq_nil {text : List α} (h : (pieces separator text).head? = some []) :
    text = [] ∨ text.head? = some separator := by
  cases text with
  | nil => exact Or.inl rfl
  | cons c rest =>
      rw [pieces] at h
      split_ifs at h with hc
      · rw [hc]
        exact Or.inr rfl
      · split at h <;> simp at h

omit [DecidableEq α] in
/-- A list that holds a separator is cut at the last one. -/
theorem exists_last_separator {text : List α} (h : separator ∈ text) :
    ∃ front back, text = front ++ separator :: back ∧ separator ∉ back := by
  obtain ⟨back, front, hsplit, hback⟩ := List.eq_append_cons_of_mem (List.mem_reverse.mpr h)
  refine ⟨front.reverse, back.reverse, ?_, by simpa using hback⟩
  rw [← List.reverse_reverse text, hsplit]
  simp

end Text

namespace Path

variable {dir file other path : Path} {name : Name}

/-! ### Joining a name -/

theorem not_isAbsolute_of_not_mem (h : slash ∉ file) : file.isAbsolute = false := by
  cases file with
  | nil => rfl
  | cons c rest =>
      rw [List.mem_cons, not_or] at h
      simpa [isAbsolute] using Ne.symm h.1

theorem join_of_not_mem (h : slash ∉ file) :
    dir.join file = if dir = [] || dir.getLast? = some slash then dir ++ file else dir ++ slash :: file := by
  rw [join, if_neg (by rw [not_isAbsolute_of_not_mem h]; simp)]

/-- The names that a directory's path leads through, without a mark for a slash at the end. -/
def names (path : Path) : List Name := path.pieces.filter (· ≠ [])

theorem steps_join (hne : file ≠ []) (hslash : slash ∉ file) : (dir.join file).steps = dir.names ++ [file] := by
  have hfile : Path.pieces file = [file] := Text.pieces_of_not_mem hslash
  have hlast : ∀ front : Path, (front ++ file).getLast? ≠ some slash := by
    intro front h
    rw [List.getLast?_append_of_ne_nil _ hne] at h
    exact hslash (List.mem_of_getLast? h)
  have hkeep : [file].filter (· ≠ []) = [file] := by simp [hne]
  rw [join_of_not_mem hslash, steps, names]
  split_ifs with hdir hend hend
  · exact absurd hend (hlast dir)
  · simp only [Bool.or_eq_true, decide_eq_true_eq] at hdir
    rcases hdir with rfl | hdir
    · rw [List.nil_append, hfile, List.append_nil, hkeep]
      rfl
    · obtain ⟨front, rfl⟩ := List.getLast?_eq_some_iff.mp hdir
      rw [Path.pieces, Path.pieces, List.append_assoc, List.singleton_append, Text.pieces_append,
        Text.pieces_append, ← Path.pieces, ← Path.pieces, hfile, List.append_nil, List.filter_append,
        List.filter_append, hkeep]
      simp [Text.pieces]
  · rw [← List.singleton_append, ← List.append_assoc] at hend
    exact absurd hend (hlast _)
  · rw [Path.pieces, Text.pieces_append, ← Path.pieces, ← Path.pieces, hfile, List.append_nil,
      List.filter_append, hkeep]

theorem join_injective (hfile : slash ∉ file) (hother : slash ∉ other) (h : dir.join file = dir.join other) :
    file = other := by
  rw [join_of_not_mem hfile, join_of_not_mem hother] at h
  split_ifs at h
  · exact List.append_cancel_left h
  · exact List.tail_eq_of_cons_eq (List.append_cancel_left h)

/-- A path into a directory starts where the directory's own path starts. -/
theorem isAbsolute_join (hdir : dir ≠ []) (hslash : slash ∉ file) : (dir.join file).isAbsolute = dir.isAbsolute := by
  cases dir with
  | nil => exact absurd rfl hdir
  | cons c rest =>
      rw [join_of_not_mem hslash]
      split_ifs <;> rfl

theorem join_ne_nil (hdir : dir ≠ []) (hslash : slash ∉ file) : dir.join file ≠ [] := by
  rw [join_of_not_mem hslash]
  split_ifs <;> simp [hdir]

/-! ### Names -/

/-- A name for a file: a single step, to an entry of the directory it is taken in. -/
structure Plain (name : Name) : Prop where
  ne_nil : name ≠ []
  ne_here : name ≠ here
  ne_above : name ≠ above
  noSlash : slash ∉ name

theorem eq_of_component? {piece : Name} (h : component? piece = some (.normal name)) : piece = name := by
  unfold component? at h
  split_ifs at h
  · cases h
  · exact Component.normal.inj (Option.some.inj h)

theorem component?_of_plain (h : Plain name) : component? name = some (.normal name) := by
  rw [component?, if_neg (by simp [h.ne_nil, h.ne_here]), if_neg h.ne_above]

theorem eq_of_component?_none {piece : Name} (h : component? piece = none) : piece = [] ∨ piece = here := by
  unfold component? at h
  split_ifs at h with hnone
  simpa using hnone

theorem plain_of_component? {piece : Name} (h : component? piece = some (.normal name)) (hpiece : piece ∈ path.pieces) :
    Plain name := by
  obtain rfl := eq_of_component? h
  refine ⟨?_, ?_, ?_, Text.not_mem_of_mem_pieces hpiece⟩ <;> rintro rfl <;> cases h

/-- Components come from pieces, but for the marks in front of them. -/
theorem mem_components_iff {part : Component} (hroot : part ≠ .root) (hcurrent : part ≠ .current) :
    part ∈ path.components ↔ ∃ piece ∈ path.pieces, component? piece = some part := by
  rw [components]
  split_ifs <;> simp [hroot, hcurrent]

theorem plain_of_mem_components (h : .normal name ∈ path.components) : Plain name := by
  obtain ⟨piece, hpiece, hname⟩ := (mem_components_iff (by simp) (by simp)).mp h
  exact plain_of_component? hname hpiece

/-- The file name of a path holds no slash. -/
theorem not_mem_of_fileName? (h : path.fileName? = some name) : slash ∉ name := by
  unfold fileName? at h
  split at h
  · next found hlast =>
    cases h
    exact (plain_of_mem_components (List.mem_of_getLast? hlast)).noSlash
  · cases h

theorem cutName_subset (name : Name) : (cutName name).1 ⊆ name := by
  unfold cutName
  split
  · exact List.Subset.refl name
  · exact List.Subset.refl name
  · next tail _ front hspan =>
    intro c hc
    have hrest : (name.reverse.span (· ≠ dot)).2 = name.reverse.dropWhile (· ≠ dot) := by
      rw [List.span_eq_takeWhile_dropWhile]
    rw [hspan] at hrest
    have hmem : c ∈ name.reverse.dropWhile (· ≠ dot) := by
      rw [← hrest]
      exact List.mem_cons_of_mem _ (List.mem_reverse.mp hc)
    exact List.mem_reverse.mp ((List.dropWhile_sublist _).subset hmem)

/-- A name cut at its last dot. -/
theorem cutName_append {front back : Name} (hfront : front ≠ []) (hback : dot ∉ back) :
    cutName (front ++ dot :: back) = (front, some back) := by
  have hall : ∀ c ∈ back.reverse, decide (c ≠ dot) = true := by
    intro c hc
    have hmem := List.mem_reverse.mp hc
    exact decide_eq_true fun heq => hback (heq ▸ hmem)
  have hspan : (front ++ dot :: back).reverse.span (· ≠ dot) = (back.reverse, dot :: front.reverse) := by
    rw [List.span_eq_takeWhile_dropWhile, List.reverse_append, List.reverse_cons, List.append_assoc,
      List.takeWhile_append_of_pos hall, List.dropWhile_append_of_pos hall]
    simp
  obtain ⟨last, init, hreverse⟩ := List.exists_cons_of_ne_nil (List.reverse_ne_nil_iff.mpr hfront)
  rw [cutName, hspan, hreverse]
  simp only [List.reverse_reverse]
  rw [← hreverse, List.reverse_reverse]

/-- A name has an extension if and only if it ends in a dot and the extension, with something in front. -/
theorem cutName_eq_some_iff {extension : Name} (hdot : dot ∉ extension) :
    (cutName name).2 = some extension ↔ ∃ stem, stem ≠ [] ∧ name = stem ++ dot :: extension := by
  constructor
  · intro h
    unfold cutName at h
    split at h
    · cases h
    · cases h
    · next tail c front hfront hspan =>
      cases h
      rw [List.span_eq_takeWhile_dropWhile, Prod.mk.injEq] at hspan
      obtain ⟨htake, hdrop⟩ := hspan
      have hc : c = dot := by
        have hhead := List.head?_dropWhile_not (fun c => decide (c ≠ dot)) name.reverse
        rw [hdrop] at hhead
        simpa using hhead
      have hreverse : name.reverse = tail ++ dot :: front := by
        rw [← hc, ← htake, ← hdrop, List.takeWhile_append_dropWhile]
      refine ⟨front.reverse, fun hnil => hfront (List.reverse_eq_nil_iff.mp hnil), ?_⟩
      rw [← List.reverse_reverse name, hreverse]
      simp
  · rintro ⟨stem, hstem, rfl⟩
    rw [cutName_append hstem hdot]

/-- The pieces of a path from its file name on: only dots and empty pieces come after it. -/
theorem pieces_of_fileName? (h : path.fileName? = some name) :
    ∃ front tail, path.pieces = front ++ name :: tail ∧ Plain name ∧ ∀ piece ∈ tail, piece = [] ∨ piece = here := by
  have hnamed : ∃ more, path.pieces.filterMap component? = more ++ [.normal name] := by
    unfold fileName? at h
    split at h
    · next found hlast =>
      cases h
      obtain ⟨more, hmore⟩ := List.getLast?_eq_some_iff.mp hlast
      simp only [components] at hmore
      split_ifs at hmore
      · rcases List.cons_eq_append_iff.mp hmore with ⟨-, hnormal⟩ | ⟨rest, -, hrest⟩
        · cases hnormal
        · exact ⟨rest, hrest⟩
      · rcases List.cons_eq_append_iff.mp hmore with ⟨-, hnormal⟩ | ⟨rest, -, hrest⟩
        · cases hnormal
        · exact ⟨rest, hrest⟩
      · exact ⟨more, hmore⟩
    · cases h
  obtain ⟨more, hmore⟩ := hnamed
  obtain ⟨before, after, hpieces, -, hafter⟩ := List.filterMap_eq_append_iff.mp hmore
  obtain ⟨between, piece, tail, rfl, -, hpiece, htail⟩ := List.filterMap_eq_cons_iff.mp hafter
  have hname := plain_of_component? hpiece (show piece ∈ path.pieces by simp [hpieces])
  obtain rfl := eq_of_component? hpiece
  refine ⟨before ++ between, tail, by rw [hpieces, List.append_assoc], hname, fun other hother => ?_⟩
  exact eq_of_component?_none (List.filterMap_eq_nil_iff.mp htail other hother)

theorem components_of_plain (h : Plain name) : Path.components name = [.normal name] := by
  have hpieces : Path.pieces name = [name] := Text.pieces_of_not_mem h.noSlash
  rw [components, not_isAbsolute_of_not_mem h.noSlash, hpieces]
  simp [h.ne_here, component?_of_plain h]

/-- A path is read as a single name where nothing but empty pieces and dots stands behind that name. -/
theorem components_eq_normal_iff : path.components = [.normal name] ↔
    Plain name ∧ ∃ marks, (∀ mark ∈ marks, mark = [] ∨ mark = here) ∧ path.pieces = name :: marks := by
  constructor
  · intro h
    have hfile : path.fileName? = some name := by
      rw [fileName?, h]
      rfl
    obtain ⟨front, marks, hpieces, hname, hmarks⟩ := pieces_of_fileName? hfile
    refine ⟨hname, marks, hmarks, ?_⟩
    cases front with
    | nil => exact hpieces
    | cons first more =>
        -- A first piece that stands for no component is a dot, or the path is absolute; either is a component in front.
        simp only [components] at h
        split_ifs at h with habsolute hhere
        · cases h
        · cases h
        · rw [hpieces, List.filterMap_append, List.filterMap_cons_some (component?_of_plain hname)] at h
          have hnone : (first :: more).filterMap component? = [] := by
            have hlength := congrArg List.length h
            rw [List.length_append, List.length_cons, List.length_singleton] at hlength
            exact List.length_eq_zero_iff.mp (by omega)
          have hfirst : component? first = none := List.filterMap_eq_nil_iff.mp hnone first List.mem_cons_self
          rcases eq_of_component?_none hfirst with rfl | rfl
          · have hhead : (Text.pieces slash path).head? = some [] := by
              rw [← Path.pieces, hpieces]
              rfl
            rcases Text.head?_pieces_eq_nil hhead with rfl | hhead
            · simp [Path.pieces, Text.pieces] at hpieces
            · exact absurd (by simp [isAbsolute, hhead]) habsolute
          · exact absurd (by rw [hpieces]; rfl) hhere
  · rintro ⟨hname, marks, hmarks, hpieces⟩
    have habsolute : path.isAbsolute = false := by
      obtain ⟨rfl, hslash, -⟩ := Text.pieces_eq_cons_iff.mp hpieces
      cases hcase : name with
      | nil => exact absurd hcase hname.ne_nil
      | cons c rest =>
          rw [hcase, List.mem_cons, not_or] at hslash
          simpa [isAbsolute] using Ne.symm hslash.1
    have hnone : marks.filterMap component? = [] := by
      rw [List.filterMap_eq_nil_iff]
      intro mark hmark
      rcases hmarks mark hmark with rfl | rfl <;> rfl
    rw [components, habsolute, hpieces, List.filterMap_cons_some (component?_of_plain hname), hnone]
    simp [hname.ne_here]

/-- A name that is joined to a directory is one more piece. An empty piece after the last slash of the directory gives
way to it. -/
theorem pieces_join (hdir : dir ≠ []) (hslash : slash ∉ name) :
    ∃ front, front ≠ [] ∧ (dir.join name).pieces = front ++ [name] ∧ (dir.pieces = front ∨ dir.pieces = front ++ [[]]) := by
  have hself : Text.pieces slash name = [name] := Text.pieces_of_not_mem hslash
  rw [join_of_not_mem hslash]
  split_ifs with hend
  · simp only [hdir, decide_false, Bool.false_or, decide_eq_true_eq] at hend
    obtain ⟨front, rfl⟩ := List.getLast?_eq_some_iff.mp hend
    refine ⟨Path.pieces front, Text.pieces_ne_nil slash front, ?_, Or.inr ?_⟩
    · rw [pieces, List.append_assoc, List.singleton_append, Text.pieces_append, hself]
      rfl
    · rw [pieces, Text.pieces_append]
      rfl
  · refine ⟨dir.pieces, Text.pieces_ne_nil slash dir, ?_, Or.inl rfl⟩
    rw [pieces, Text.pieces_append, hself]
    rfl

/-- A name that is joined to a directory is one more component. -/
theorem components_join (hname : Plain name) : (dir.join name).components = dir.components ++ [.normal name] := by
  by_cases hdir : dir = []
  · rw [join_of_not_mem hname.noSlash, if_pos (by simp [hdir]), hdir, List.nil_append, components_of_plain hname]
    rfl
  · obtain ⟨front, hne, hjoin, hfront⟩ := pieces_join hdir hname.noSlash
    have hempty : component? [] = none := rfl
    have hnames : dir.pieces.filterMap component? = front.filterMap component? := by
      rcases hfront with hfront | hfront <;> simp [hfront, hempty]
    have hhead : dir.pieces.head? = front.head? := by
      rcases hfront with hfront | hfront
      · rw [hfront]
      · rw [hfront, List.head?_append_of_ne_nil _ hne]
    simp only [components, isAbsolute_join hdir hname.noSlash, hjoin, hnames, hhead, List.head?_append_of_ne_nil _ hne,
      List.filterMap_append, List.filterMap_cons, component?_of_plain hname, List.filterMap_nil]
    split_ifs <;> rfl

theorem fileName?_eq_some_iff : path.fileName? = some name ↔ path.components.getLast? = some (.normal name) := by
  unfold fileName?
  split
  · next found hlast => simp [hlast]
  · next hlast => simpa using hlast name

/-- A name that is joined to a directory is the file name of the path. -/
theorem fileName?_join (hname : Plain name) : (dir.join name).fileName? = some name := by
  rw [fileName?, components_join hname, List.getLast?_concat]

theorem extension?_join (hname : Plain name) : (dir.join name).extension? = (cutName name).2 := by
  rw [extension?, fileName?_join hname, Option.bind_some]

theorem not_mem_of_stem? (h : path.stem? = some name) : slash ∉ name := by
  obtain ⟨file, hfile, rfl⟩ := Option.map_eq_some_iff.mp h
  intro hmem
  exact not_mem_of_fileName? hfile (cutName_subset file hmem)

end Path

end RouteBook
