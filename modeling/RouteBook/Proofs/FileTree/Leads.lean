import RouteBook.Proofs.FileTree.Growth

/-! Where paths lead. `Leads` says how a walk that succeeds goes, one rule for each kind of step, and is what
`walk` computes. Facts about growing trees are inductions on it: what was reached stays reached, a free name
that is filled is reached, and a walk that starts on a clear way stays on one. -/

namespace RouteBook

/-- The location that a place stands for, whether something is there or not. -/
def Place.location : Place → Location
  | .at loc _ => loc
  | .free dir name _ => dir ++ [name]

def Place.slash : Place → Bool
  | .at _ slash | .free _ _ slash => slash

namespace FileTree

/-- A name that is entered as a step: not empty, neither of the two dots, and not too long. -/
structure Enterable (name : Name) : Prop where
  ne_nil : name ≠ []
  ne_here : name ≠ Path.here
  ne_above : name ≠ Path.above
  short : name.length ≤ nameLimit

/-- From a location some steps lead to a place, with a number of links still to be followed. -/
inductive Leads (tree : FileTree) (follow : Bool) : Nat → Location → List Name → Place → Prop
  | done {links : Nat} {loc : Location} : Leads tree follow links loc [] (.at loc false)
  | slash {links : Nat} {loc : Location} {rest : List Name} (hrest : rest.all List.isEmpty) :
      Leads tree follow links loc ([] :: rest) (.at loc true)
  | stay {links : Nat} {loc : Location} {name : Name} {rest : List Name} {place : Place}
      (hslash : ¬(name = [] ∧ rest.all List.isEmpty)) (hdir : tree.get? loc = some .dir)
      (hname : name = [] ∨ name = Path.here) (next : Leads tree follow links loc rest place) :
      Leads tree follow links loc (name :: rest) place
  | up {links : Nat} {loc : Location} {rest : List Name} {place : Place} (hdir : tree.get? loc = some .dir)
      (next : Leads tree follow links loc.dropLast rest place) : Leads tree follow links loc (Path.above :: rest) place
  | free {links : Nat} {loc : Location} {name : Name} {rest : List Name} (hdir : tree.get? loc = some .dir)
      (hname : Enterable name) (hnone : tree.get? (loc ++ [name]) = none) (hrest : rest.all List.isEmpty) :
      Leads tree follow links loc (name :: rest) (.free loc name (!rest.isEmpty))
  | link {links : Nat} {loc : Location} {name : Name} {rest : List Name} {target : Path}
      (hdir : tree.get? loc = some .dir) (hname : Enterable name)
      (hlink : tree.get? (loc ++ [name]) = some (.link target)) (hfollow : follow = false)
      (hrest : rest.all List.isEmpty) : Leads tree follow links loc (name :: rest) (.at (loc ++ [name]) (!rest.isEmpty))
  | through {links : Nat} {loc : Location} {name : Name} {rest : List Name} {target : Path} {place : Place}
      (hdir : tree.get? loc = some .dir) (hname : Enterable name)
      (hlink : tree.get? (loc ++ [name]) = some (.link target)) (hfollow : ¬(follow = false ∧ rest.all List.isEmpty))
      (next : Leads tree follow links (if target.isAbsolute then [] else loc) (target.steps ++ rest) place) :
      Leads tree follow (links + 1) loc (name :: rest) place
  | enter {links : Nat} {loc : Location} {name : Name} {rest : List Name} {entry : Entry} {place : Place}
      (hdir : tree.get? loc = some .dir) (hname : Enterable name) (hentry : tree.get? (loc ++ [name]) = some entry)
      (hlink : ∀ target, entry ≠ .link target) (next : Leads tree follow links (loc ++ [name]) rest place) :
      Leads tree follow links loc (name :: rest) place

variable {tree : FileTree} {follow : Bool} {links : Nat} {loc : Location} {steps : List Name} {place : Place}

/-- In a directory a name that can be entered is looked up. -/
theorem walk_enterable {name : Name} {rest : List Name} (hdir : tree.get? loc = some .dir) (hname : Enterable name) :
    tree.walk follow links loc (name :: rest) =
      match tree.get? (loc ++ [name]) with
      | none => if rest.all List.isEmpty then .ok (.free loc name (!rest.isEmpty)) else .error .noEntry
      | some (.link target) =>
        if !follow && rest.all List.isEmpty then .ok (.at (loc ++ [name]) (!rest.isEmpty))
        else
          match links with
          | 0 => .error .linkLoop
          | links + 1 => tree.walk follow links (if target.isAbsolute then [] else loc) (target.steps ++ rest)
      | some _ => tree.walk follow links (loc ++ [name]) rest := by
  rw [walk, if_neg (by simp [hname.ne_nil]), if_neg (not_not.mpr hdir),
    if_neg (by simp [hname.ne_nil, hname.ne_here]), if_neg hname.ne_above]
  exact if_neg (by simpa using hname.short)

theorem Leads.walk_eq (h : tree.Leads follow links loc steps place) :
    tree.walk follow links loc steps = .ok place := by
  induction h with
  | done => rw [walk]
  | slash hrest => rw [walk, if_pos (by simp [hrest])]
  | stay hslash hdir hname _ ih =>
      rw [walk, if_neg (by simpa using hslash), if_neg (not_not.mpr hdir), if_pos (by simpa using hname), ih]
  | up hdir _ ih =>
      rw [walk, if_neg (by simp [Path.above]), if_neg (not_not.mpr hdir), if_neg (by decide), if_pos rfl, ih]
  | free hdir hname hnone hrest =>
      rw [walk_enterable hdir hname, hnone]
      exact if_pos hrest
  | link hdir hname hlink hfollow hrest =>
      rw [walk_enterable hdir hname, hlink]
      exact if_pos (by simp [hfollow, hrest])
  | through hdir hname hlink hfollow _ ih =>
      rw [walk_enterable hdir hname, hlink]
      exact (if_neg (by simpa using hfollow)).trans ih
  | @enter _ _ _ _ entry _ hdir hname hentry hlink _ ih =>
      rw [walk_enterable hdir hname, hentry]
      cases entry with
      | file content => exact ih
      | dir => exact ih
      | link target => exact absurd rfl (hlink target)

theorem leads_of_walk_eq (h : tree.walk follow links loc steps = .ok place) :
    tree.Leads follow links loc steps place := by
  fun_induction tree.walk follow links loc steps with
  | case1 => cases h; exact .done
  | case2 links loc name rest hslash =>
      cases h
      simp only [Bool.and_eq_true, decide_eq_true_eq] at hslash
      obtain ⟨rfl, hrest⟩ := hslash
      exact .slash hrest
  | case4 links loc name rest hslash hdir hname ih =>
      exact .stay (by simpa using hslash) (not_not.mp hdir) (by simpa using hname) (ih h)
  | case5 links loc rest hdir hslash hname ih => exact .up (not_not.mp hdir) (ih h)
  | case7 links loc name rest hslash hdir hhere habove hshort hnone hrest =>
      cases h
      simp only [Bool.or_eq_true, decide_eq_true_eq, not_or] at hhere
      exact .free (not_not.mp hdir) ⟨hhere.1, hhere.2, habove, not_lt.mp hshort⟩ hnone hrest
  | case9 links loc name rest hslash hdir hhere habove hshort target hlink hrest =>
      cases h
      simp only [Bool.or_eq_true, decide_eq_true_eq, not_or] at hhere
      simp only [Bool.and_eq_true, Bool.not_eq_true'] at hrest
      exact .link (not_not.mp hdir) ⟨hhere.1, hhere.2, habove, not_lt.mp hshort⟩ hlink hrest.1 hrest.2
  | case11 loc name rest hslash hdir hhere habove hshort target hlink hrest links ih =>
      simp only [Bool.or_eq_true, decide_eq_true_eq, not_or] at hhere
      simp only [Bool.and_eq_true, Bool.not_eq_true'] at hrest
      exact .through (not_not.mp hdir) ⟨hhere.1, hhere.2, habove, not_lt.mp hshort⟩ hlink hrest (ih h)
  | case12 links loc name rest hslash hdir hhere habove hshort entry hlink hentry ih =>
      simp only [Bool.or_eq_true, decide_eq_true_eq, not_or] at hhere
      exact .enter (not_not.mp hdir) ⟨hhere.1, hhere.2, habove, not_lt.mp hshort⟩ hentry
        (fun target heq => hlink target heq) (ih h)
  | _ => cases h

/-- Walking is what `Leads` describes. -/
theorem walk_eq_ok_iff : tree.walk follow links loc steps = .ok place ↔ tree.Leads follow links loc steps place :=
  ⟨leads_of_walk_eq, Leads.walk_eq⟩

/-! ### Growing trees -/

section Growing

variable {old new : FileTree} {dir : Location} {name : Name} {slash : Bool}

private theorem leads_emptySteps (rest : List Name) (hrest : rest.all List.isEmpty) :
    tree.Leads follow links loc rest (.at loc (!rest.isEmpty)) := by
  cases rest with
  | nil => exact .done
  | cons head rest =>
      simp only [List.all_cons, Bool.and_eq_true, List.isEmpty_iff] at hrest
      obtain ⟨rfl, hrest⟩ := hrest
      exact .slash hrest

/-- In a tree that grew, steps lead to the location they led to before, provided that it is filled. -/
theorem Leads.grown (h : old.Leads follow links loc steps place) (hgrow : old.Extends new)
    (hfill : ∀ dir name slash, place = .free dir name slash →
      ∃ entry, new.get? (dir ++ [name]) = some entry ∧ ∀ target, entry ≠ .link target) :
    new.Leads follow links loc steps (.at place.location place.slash) := by
  induction h with
  | done => exact .done
  | slash hrest => exact .slash hrest
  | stay hslash hdir hname _ ih => exact .stay hslash (hgrow.dir hdir) hname (ih hfill)
  | up hdir _ ih => exact .up (hgrow.dir hdir) (ih hfill)
  | @free _ _ _ rest hdir hname hnone hrest =>
      obtain ⟨entry, hentry, hlink⟩ := hfill _ _ _ rfl
      exact .enter (hgrow.dir hdir) hname hentry hlink (leads_emptySteps rest hrest)
  | link hdir hname hlink hfollow hrest => exact .link (hgrow.dir hdir) hname (hgrow.link hlink) hfollow hrest
  | through hdir hname hlink hfollow _ ih =>
      exact .through (hgrow.dir hdir) hname (hgrow.link hlink) hfollow (ih hfill)
  | enter hdir hname hentry hlink _ ih =>
      obtain ⟨other, hother, houtline⟩ := hgrow.exists_outline hentry
      refine .enter (hgrow.dir hdir) hname hother (fun target heq => ?_) (ih hfill)
      rw [heq] at houtline
      exact hlink target (Entry.outline_eq_link houtline.symm)

/-- A free place is a name without an entry in a directory. -/
theorem Leads.free_get? (h : tree.Leads follow links loc steps (.free dir name slash)) :
    tree.get? dir = some .dir ∧ tree.get? (dir ++ [name]) = none := by
  generalize hplace : Place.free dir name slash = place at h
  induction h with
  | done | slash | link => cases hplace
  | free hdir _ hnone _ => cases hplace; exact ⟨hdir, hnone⟩
  | stay _ _ _ _ ih | up _ _ ih | through _ _ _ _ _ ih | enter _ _ _ _ _ ih => exact ih hplace

/-- A walk that follows every link and starts on a clear way ends on one. -/
theorem Leads.clear (h : tree.Leads true links loc steps place) (hloc : tree.Clear loc) :
    tree.Clear place.location := by
  induction h with
  | done => exact hloc
  | slash => exact hloc
  | stay _ _ _ _ ih => exact ih hloc
  | up _ _ ih => exact ih hloc.dropLast
  | free _ _ hnone _ => exact hloc.append (fun target => by rw [hnone]; simp)
  | link _ _ _ hfollow _ => cases hfollow
  | @through _ _ _ _ target _ _ _ _ _ _ ih =>
      apply ih
      split_ifs
      · exact tree.clear_nil
      · exact hloc
  | enter _ _ hentry hlink _ ih =>
      exact ih (hloc.append (fun target => by rw [hentry]; simpa using hlink target))

/-- A place that is free when the last link is not followed is free when it is. -/
theorem Leads.free_follow (h : tree.Leads false links loc steps (.free dir name slash)) :
    tree.Leads true links loc steps (.free dir name slash) := by
  generalize hplace : Place.free dir name slash = place at h ⊢
  induction h with
  | done | slash | link => cases hplace
  | free hdir hname hnone hrest => exact .free hdir hname hnone hrest
  | stay hslash hdir hname _ ih => exact .stay hslash hdir hname (ih hplace)
  | up hdir _ ih => exact .up hdir (ih hplace)
  | through hdir hname hlink _ _ ih => exact .through hdir hname hlink (by simp) (ih hplace)
  | enter hdir hname hentry hlink _ ih => exact .enter hdir hname hentry hlink (ih hplace)

/-- What is reached through a last link is reached as that link when it is not followed. -/
theorem Leads.at_unfollowed (h : tree.Leads true links loc steps (.at dir slash)) :
    ∃ other slash', tree.Leads false links loc steps (.at other slash') := by
  generalize hplace : Place.at dir slash = place at h
  induction h with
  | done => exact ⟨_, _, .done⟩
  | slash hrest => exact ⟨_, _, .slash hrest⟩
  | free => cases hplace
  | link _ _ _ hfollow _ => cases hfollow
  | stay hslash hdir hname _ ih =>
      obtain ⟨other, slash', hnext⟩ := ih hplace
      exact ⟨other, slash', .stay hslash hdir hname hnext⟩
  | up hdir _ ih =>
      obtain ⟨other, slash', hnext⟩ := ih hplace
      exact ⟨other, slash', .up hdir hnext⟩
  | @through _ _ _ rest _ _ hdir hname hlink _ _ ih =>
      by_cases hrest : rest.all List.isEmpty
      · exact ⟨_, _, .link hdir hname hlink rfl hrest⟩
      · obtain ⟨other, slash', hnext⟩ := ih hplace
        exact ⟨other, slash', .through hdir hname hlink (by simp [hrest]) hnext⟩
  | enter hdir hname hentry hlink _ ih =>
      obtain ⟨other, slash', hnext⟩ := ih hplace
      exact ⟨other, slash', .enter hdir hname hentry hlink hnext⟩

end Growing

/-! ### Paths -/

/-- The location that a path starts from. -/
def start (tree : FileTree) (path : Path) : Location := if path.isAbsolute then [] else tree.cwd

theorem start_extends {old new : FileTree} (h : old.Extends new) (path : Path) : new.start path = old.start path := by
  rw [start, start, h.cwd]

theorem Clear.start (h : tree.Clear tree.cwd) (path : Path) : tree.Clear (tree.start path) := by
  unfold FileTree.start
  split_ifs
  · exact tree.clear_nil
  · exact h

/-- A path that the system accepts leads to a place. -/
structure Reaches (tree : FileTree) (follow : Bool) (path : Path) (place : Place) : Prop where
  noZero : path.contains 0 = false
  ne_nil : path ≠ []
  short : path.length < pathLimit
  leads : tree.Leads follow linkLimit (tree.start path) path.steps place

theorem place_eq_ok_iff {path : Path} : tree.place follow path = .ok place ↔ tree.Reaches follow path place := by
  rw [FileTree.place, ← start]
  constructor
  · intro h
    split_ifs at h with hzero hnil hlong
    cases hwalk : tree.walk follow linkLimit (tree.start path) path.steps with
    | error e => rw [hwalk] at h; cases h
    | ok found =>
        rw [hwalk] at h
        cases h
        exact ⟨by simpa using hzero, hnil, not_le.mp hlong, walk_eq_ok_iff.mp hwalk⟩
  · rintro ⟨hzero, hnil, hshort, hleads⟩
    rw [if_neg (by rw [hzero]; simp), if_neg hnil, if_neg (not_le.mpr hshort), walk_eq_ok_iff.mpr hleads]
    rfl

theorem locate_eq_ok_iff {path : Path} :
    tree.locate path = .ok loc ↔
      ∃ slash, tree.Reaches true path (.at loc slash) ∧ (slash = true → tree.get? loc = some .dir) := by
  simp only [← place_eq_ok_iff]
  unfold locate
  cases tree.place true path with
  | error e => simp [bind, Except.bind]
  | ok place =>
      cases place with
      | free dir name slash => simp [bind, Except.bind]
      | «at» found slash =>
          by_cases hdir : slash = true → tree.get? found = some .dir <;>
            simp only [bind, Except.bind, Bool.and_eq_true, decide_eq_true_eq]
          · rw [if_neg (by tauto)]
            simp only [Except.ok.injEq, Place.at.injEq]
            constructor
            · rintro rfl; exact ⟨slash, ⟨rfl, rfl⟩, hdir⟩
            · rintro ⟨_, ⟨rfl, -⟩, -⟩; rfl
          · rw [if_pos (by tauto)]
            constructor
            · intro h; cases h
            · rintro ⟨_, heq, himp⟩
              cases heq
              exact absurd himp hdir

/-- A path that leads to a location does so after the tree grew. -/
theorem locate_extends {old new : FileTree} (hgrow : old.Extends new) {path : Path} (h : old.locate path = .ok loc) :
    new.locate path = .ok loc := by
  obtain ⟨slash, hreach, hdir⟩ := locate_eq_ok_iff.mp h
  refine locate_eq_ok_iff.mpr ⟨slash, ⟨hreach.noZero, hreach.ne_nil, hreach.short, ?_⟩, fun hs => hgrow.dir (hdir hs)⟩
  rw [start_extends hgrow]
  exact hreach.leads.grown hgrow (fun _ _ _ hfree => by cases hfree)

/-- What a path leads to is no link, and none is on the way to it. -/
theorem Reaches.clear {path : Path} (h : tree.Reaches true path place) (hcwd : tree.Clear tree.cwd) :
    tree.Clear place.location := h.leads.clear (hcwd.start path)

end FileTree
end RouteBook
