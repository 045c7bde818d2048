import Mathlib.Tactic
import RouteBook.FileTree.Files

/-! Trees that only grow. A write or a new directory puts an entry where none stood, or changes the content of
a file; it never removes an entry and never makes a directory of a file or of a link. Whatever a path led to
before such a change it leads to afterwards, and a name that was free leads to what was put there. -/

namespace RouteBook

/-- An entry without the content of a file: the part that stays when a tree grows. -/
def Entry.outline : Entry → Entry
  | .file _ => .file []
  | other => other

theorem Entry.outline_eq_dir {entry : Entry} (h : entry.outline = .dir) : entry = .dir := by
  cases entry with
  | dir => rfl
  | file content => cases h
  | link target => cases h

theorem Entry.outline_eq_link {entry : Entry} {target : Path} (h : entry.outline = .link target) :
    entry = .link target := by
  cases entry with
  | link other => exact h
  | file content => cases h
  | dir => cases h

namespace FileTree

/-! ### Looking up after a change -/

@[simp]
theorem get?_nil (tree : FileTree) : tree.get? [] = some .dir := if_pos rfl

theorem get?_of_ne_nil (tree : FileTree) {loc : Location} (h : loc ≠ []) :
    tree.get? loc = tree.entries.lookup loc := if_neg h

@[simp]
theorem cwd_put (tree : FileTree) (loc : Location) (entry : Entry) : (tree.put loc entry).cwd = tree.cwd := by
  unfold put
  split <;> rfl

private theorem lookup_replace (entries : List (Location × Entry)) (loc other : Location) (entry : Entry) :
    (entries.map fun (l, e) => if l = loc then (l, entry) else (l, e)).lookup other =
      if other = loc then (entries.lookup other).map fun _ => entry else entries.lookup other := by
  induction entries with
  | nil => simp
  | cons item rest ih =>
      obtain ⟨l, e⟩ := item
      by_cases hl : l = loc <;> by_cases ho : other = l <;>
        simp_all [List.lookup_cons, beq_eq_false_iff_ne.mpr]

theorem get?_put_self (tree : FileTree) {loc : Location} (h : loc ≠ []) (entry : Entry) :
    (tree.put loc entry).get? loc = some entry := by
  rw [get?_of_ne_nil _ h, put]
  split_ifs with hsome
  · rw [lookup_replace, if_pos rfl]
    obtain ⟨old, hold⟩ := Option.isSome_iff_exists.mp hsome
    rw [hold, Option.map_some]
  · rw [Option.not_isSome_iff_eq_none] at hsome
    rw [List.lookup_append, hsome, Option.none_or, List.lookup_cons_self]

theorem get?_put_of_ne (tree : FileTree) {loc other : Location} (h : other ≠ loc) (entry : Entry) :
    (tree.put loc entry).get? other = tree.get? other := by
  by_cases hnil : other = []
  · rw [hnil, get?_nil, get?_nil]
  · rw [get?_of_ne_nil _ hnil, get?_of_ne_nil _ hnil, put]
    split_ifs
    · rw [lookup_replace, if_neg h]
    · rw [List.lookup_append, List.lookup_cons, beq_eq_false_iff_ne.mpr h]
      simp

/-! ### Growth -/

/-- Every entry of the old tree is still there in the new one, up to the content of files. -/
structure Extends (old new : FileTree) : Prop where
  cwd : new.cwd = old.cwd
  kept : ∀ {loc : Location} {entry : Entry}, old.get? loc = some entry →
    (new.get? loc).map Entry.outline = some entry.outline

namespace Extends

theorem refl (tree : FileTree) : tree.Extends tree := ⟨rfl, fun h => by rw [h, Option.map_some]⟩

variable {old middle new : FileTree} {loc : Location}

theorem exists_outline (h : old.Extends new) {entry : Entry} (hentry : old.get? loc = some entry) :
    ∃ other, new.get? loc = some other ∧ other.outline = entry.outline :=
  Option.map_eq_some_iff.mp (h.kept hentry)

theorem dir (h : old.Extends new) (hdir : old.get? loc = some .dir) : new.get? loc = some .dir := by
  obtain ⟨entry, hentry, houtline⟩ := h.exists_outline hdir
  rw [hentry, Entry.outline_eq_dir houtline]

theorem link (h : old.Extends new) {target : Path} (hlink : old.get? loc = some (.link target)) :
    new.get? loc = some (.link target) := by
  obtain ⟨entry, hentry, houtline⟩ := h.exists_outline hlink
  rw [hentry, Entry.outline_eq_link houtline]

theorem none (h : old.Extends new) (hnone : new.get? loc = none) : old.get? loc = none := by
  cases hold : old.get? loc with
  | none => rfl
  | some entry =>
      have hkept := h.kept hold
      rw [hnone] at hkept
      cases hkept

theorem trans (h₁ : old.Extends middle) (h₂ : middle.Extends new) : old.Extends new := by
  refine ⟨h₂.cwd.trans h₁.cwd, fun {loc entry} hentry => ?_⟩
  obtain ⟨other, hother, houtline⟩ := h₁.exists_outline hentry
  rw [h₂.kept hother, houtline]

end Extends

/-- A tree grows when an entry is put where none stood, or in the place of one of the same outline. -/
theorem extends_put {tree : FileTree} {loc : Location} {entry : Entry} (hloc : loc ≠ [])
    (h : ∀ old, tree.get? loc = some old → old.outline = entry.outline) : tree.Extends (tree.put loc entry) := by
  refine ⟨tree.cwd_put loc entry, fun {other old} hold => ?_⟩
  by_cases heq : other = loc
  · subst other
    rw [get?_put_self _ hloc, h old hold, Option.map_some]
  · rw [get?_put_of_ne _ heq, hold, Option.map_some]

/-- No symbolic link on the way to a location, and none at the location itself. -/
def Clear (tree : FileTree) (loc : Location) : Prop :=
  ∀ front, front <+: loc → ∀ target, tree.get? front ≠ some (.link target)

theorem clear_nil (tree : FileTree) : tree.Clear [] := by
  intro front hfront target
  rw [List.prefix_nil.mp hfront, get?_nil]
  simp

theorem Clear.not_link {tree : FileTree} {loc : Location} (h : tree.Clear loc) (target : Path) :
    tree.get? loc ≠ some (.link target) := h loc (List.prefix_refl loc) target

theorem Clear.dropLast {tree : FileTree} {loc : Location} (h : tree.Clear loc) : tree.Clear loc.dropLast :=
  fun front hfront => h front (hfront.trans (List.dropLast_prefix loc))

theorem Clear.append {tree : FileTree} {loc : Location} {name : Name} (h : tree.Clear loc)
    (hname : ∀ target, tree.get? (loc ++ [name]) ≠ some (.link target)) : tree.Clear (loc ++ [name]) := by
  intro front hfront target
  rcases List.prefix_concat_iff.mp hfront with heq | hfront
  · rw [heq]
    exact hname target
  · exact h front hfront target

/-- Putting anything but a link leaves a way clear. -/
theorem Clear.put {tree : FileTree} {loc other : Location} {entry : Entry} (h : tree.Clear loc)
    (hentry : ∀ target, entry ≠ .link target) (hother : other ≠ []) : (tree.put other entry).Clear loc := by
  intro front hfront target
  by_cases heq : front = other
  · rw [heq, get?_put_self _ hother]
    simpa using hentry target
  · rw [get?_put_of_ne _ heq]
    exact h front hfront target

/-- Whether an entry is a link shows in its outline, which has no content to compare. -/
theorem forall_ne_link_iff {entry : Entry} :
    (∀ target, entry ≠ .link target) ↔ entry.outline = .dir ∨ entry.outline = .file [] := by
  cases entry <;> simp [Entry.outline]

theorem linkFree_iff {tree : FileTree} :
    tree.LinkFree ↔ ∀ item ∈ tree.entries, item.2.outline = .dir ∨ item.2.outline = .file [] :=
  forall₂_congr fun _ _ => forall_ne_link_iff

instance (tree : FileTree) : Decidable tree.LinkFree := decidable_of_iff _ linkFree_iff.symm

/-- In a tree without links every way is clear. -/
theorem LinkFree.clear {tree : FileTree} (h : tree.LinkFree) (loc : Location) : tree.Clear loc := by
  intro front _ target hget
  by_cases hnil : front = []
  · rw [hnil, get?_nil] at hget
    cases hget
  · rw [get?_of_ne_nil _ hnil] at hget
    obtain ⟨before, after, hentries, -⟩ := List.lookup_eq_some_iff.mp hget
    exact h (front, .link target) (by simp [hentries]) target rfl

end FileTree
end RouteBook
