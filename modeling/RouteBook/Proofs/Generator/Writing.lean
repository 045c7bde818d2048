import RouteBook.Generator.Run
import RouteBook.Proofs.FileTree.Changes

/-! What writing documents into a directory leaves behind. Writes are taken as pairs of a path and a content. A
run of writes makes the directory, and then every path leads to a file; of the writes whose paths lead to one
location the last one gives the content, and no other location changes. `writeAll` is such a run, either over
all documents or over those before the first that cannot be written. -/

namespace RouteBook.Generator

open OpenApi (Document)
open FileTree

/-- The path of the file for a document. -/
def outputPath (format : Format) (dir : Path) (name : String) : Path := dir.join (utf8 (outputName format name))

/-- The file for a document: its path and its content. -/
def outputFile (format : Format) (dir : Path) (document : String × Document) : Path × Bytes :=
  (outputPath format dir document.1, utf8 (render format document.1 document.2))

/-- The effect of writing files into a directory one after another. -/
structure Wrote (dir : Path) (files : List (Path × Bytes)) (tree left : FileTree) : Prop where
  grown : tree.Extends left
  located : ∀ file ∈ files, ∃ loc, left.locate file.1 = .ok loc
  /-- The last write to a location gives the content of the file there. -/
  last : ∀ before file after loc, files = before ++ file :: after → left.locate file.1 = .ok loc →
    (∀ later ∈ after, left.locate later.1 ≠ .ok loc) → left.get? loc = some (.file file.2)
  /-- All else is as it was, but for directories on the way to the one that is written into. -/
  frame : ∀ loc, left.get? loc = tree.get? loc ∨
    (tree.get? loc = none ∧ left.get? loc = some .dir ∧ ∃ path ∈ dir.ancestors, left.locate path = .ok loc) ∨
    ∃ file ∈ files, left.locate file.1 = .ok loc
  made : files ≠ [] → ∀ further, left.Extends further → further.makeDirs dir = (further, .ok ())

/-- Among the members with a property there is a last one. -/
private theorem exists_last {α : Type} {p : α → Prop} {items : List α} (h : ∃ item ∈ items, p item) :
    ∃ before item after, items = before ++ item :: after ∧ p item ∧ ∀ later ∈ after, ¬p later := by
  classical
  induction items with
  | nil =>
      obtain ⟨item, hmem, -⟩ := h
      cases hmem
  | cons first rest ih =>
      by_cases hrest : ∃ item ∈ rest, p item
      · obtain ⟨before, item, after, rfl, hitem⟩ := ih hrest
        exact ⟨first :: before, item, after, rfl, hitem⟩
      · push Not at hrest
        obtain ⟨item, hmem, hitem⟩ := h
        rcases List.mem_cons.mp hmem with rfl | hmem
        · exact ⟨[], item, rest, rfl, hitem, hrest⟩
        · exact absurd hitem (hrest item hmem)

namespace Wrote

variable {dir : Path} {files more : List (Path × Bytes)} {tree middle left : FileTree} {loc : Location}

/-- Where a file was written, the content is that of the last file with the same target. -/
theorem exists_last_file (h : Wrote dir files tree left) {file : Path × Bytes} (hfile : file ∈ files)
    (hloc : left.locate file.1 = .ok loc) :
    ∃ before winner after, files = before ++ winner :: after ∧ left.locate winner.1 = .ok loc ∧
      (∀ later ∈ after, left.locate later.1 ≠ .ok loc) ∧ left.get? loc = some (.file winner.2) := by
  obtain ⟨before, winner, after, hsplit, hwinner, hafter⟩ :=
    exists_last (p := fun file : Path × Bytes => left.locate file.1 = .ok loc) ⟨file, hfile, hloc⟩
  exact ⟨before, winner, after, hsplit, hwinner, hafter, h.last before winner after loc hsplit hwinner hafter⟩

theorem of_dirsMade (h : DirsMade dir.ancestors tree left) : Wrote dir [] tree left where
  grown := h.grown
  located := fun file hfile => by cases hfile
  last := fun before file after loc hsplit => absurd hsplit (by simp)
  frame := fun loc => (h.frame loc).imp_right Or.inl
  made := fun hne => absurd rfl hne

/-- The content of an earlier write stays where no later write leads. -/
private theorem last_kept (h₁ : Wrote dir files tree middle) (h₂ : Wrote dir more middle left)
    {before after : List (Path × Bytes)} {file : Path × Bytes} (hfiles : files = before ++ file :: after)
    (hloc : left.locate file.1 = .ok loc) (hafter : ∀ later ∈ after ++ more, left.locate later.1 ≠ .ok loc) :
    left.get? loc = some (.file file.2) := by
  have hfile : file ∈ files := by simp [hfiles]
  obtain ⟨found, hfound⟩ := h₁.located file hfile
  obtain rfl : found = loc := Except.ok.inj ((locate_extends h₂.grown hfound).symm.trans hloc)
  have hmiddle : middle.get? found = some (.file file.2) := by
    apply h₁.last before file after found hfiles hfound
    intro later hlater hsame
    exact hafter later (List.mem_append_left more hlater) (locate_extends h₂.grown hsame)
  rcases h₂.frame found with heq | ⟨hnone, -⟩ | ⟨later, hlater, hsame⟩
  · rw [heq, hmiddle]
  · rw [hmiddle] at hnone
    cases hnone
  · exact absurd hsame (hafter later (List.mem_append_right after hlater))

/-- Writes after writes. -/
theorem append (h₁ : Wrote dir files tree middle) (h₂ : Wrote dir more middle left) :
    Wrote dir (files ++ more) tree left where
  grown := h₁.grown.trans h₂.grown
  located := by
    intro file hfile
    rcases List.mem_append.mp hfile with hfile | hfile
    · obtain ⟨loc, hloc⟩ := h₁.located file hfile
      exact ⟨loc, locate_extends h₂.grown hloc⟩
    · exact h₂.located file hfile
  last := by
    intro before file after loc hsplit hloc hafter
    rcases List.append_eq_append_iff.mp hsplit with ⟨front, -, hmore⟩ | ⟨front, hfiles, hrest⟩
    · exact h₂.last front file after loc hmore hloc hafter
    · cases front with
      | nil => exact h₂.last [] file after loc hrest.symm hloc hafter
      | cons first front =>
          obtain ⟨rfl, rfl⟩ := List.cons_eq_cons.mp hrest
          exact last_kept h₁ h₂ hfiles hloc hafter
  frame := by
    intro loc
    rcases h₂.frame loc with heq | ⟨hnone, hdir, path, hpath, hlocate⟩ | ⟨file, hfile, hloc⟩
    · rw [heq]
      rcases h₁.frame loc with h | ⟨hnone, hdir, path, hpath, hlocate⟩ | ⟨file, hfile, hloc⟩
      · exact Or.inl h
      · exact Or.inr (Or.inl ⟨hnone, hdir, path, hpath, locate_extends h₂.grown hlocate⟩)
      · exact Or.inr (Or.inr ⟨file, List.mem_append_left more hfile, locate_extends h₂.grown hloc⟩)
    · exact Or.inr (Or.inl ⟨h₁.grown.none hnone, hdir, path, hpath, hlocate⟩)
    · exact Or.inr (Or.inr ⟨file, List.mem_append_right files hfile, hloc⟩)
  made := by
    intro hne further hgrow
    by_cases hmore : more = []
    · exact h₁.made (by simpa [hmore] using hne) further (h₂.grown.trans hgrow)
    · exact h₂.made hmore further hgrow

end Wrote

/-- Two paths lead to one location. -/
def SameTarget (tree : FileTree) (path other : Path) : Prop :=
  ∃ loc, tree.locate path = .ok loc ∧ tree.locate other = .ok loc

theorem readText_of_readFile {tree : FileTree} {path : Path} {text : String}
    (h : tree.readFile path = .ok (utf8 text)) : tree.readText path = .ok text := by
  rw [readText, h]
  simp only [bind, Except.bind, utf8?_utf8]

/-- A file that was written is read back as the last one with the same target. -/
theorem Wrote.readFile {dir : Path} {files : List (Path × Bytes)} {tree left : FileTree} {file : Path × Bytes}
    (h : Wrote dir files tree left) (hfile : file ∈ files) :
    ∃ before winner after, files = before ++ winner :: after ∧ SameTarget left file.1 winner.1 ∧
      (∀ later ∈ after, ¬SameTarget left file.1 later.1) ∧ left.readFile file.1 = .ok winner.2 := by
  obtain ⟨loc, hloc⟩ := h.located file hfile
  obtain ⟨before, winner, after, hsplit, hwinner, hafter, hget⟩ := h.exists_last_file hfile hloc
  refine ⟨before, winner, after, hsplit, ⟨loc, hloc, hwinner⟩, ?_, readFile_eq_ok_iff.mpr ⟨loc, hloc, hget⟩⟩
  rintro later hlater ⟨other, hother, hlocate⟩
  obtain rfl : loc = other := Except.ok.inj (hloc.symm.trans hother)
  exact hafter later hlater hlocate

/-- Writing makes no links. -/
theorem Wrote.clear {dir : Path} {files : List (Path × Bytes)} {tree left : FileTree} {loc : Location}
    (h : Wrote dir files tree left) (hloc : tree.Clear loc) : left.Clear loc := by
  intro front hfront target hlink
  rcases h.frame front with heq | ⟨-, hdir, -⟩ | ⟨file, hfile, hlocate⟩
  · exact hloc front hfront target (heq ▸ hlink)
  · rw [hdir] at hlink
    cases hlink
  · obtain ⟨-, winner, -, -, -, -, hget⟩ := h.exists_last_file hfile hlocate
    rw [hget] at hlink
    cases hlink

/-! ### One document -/

variable {format : Format} {dir : Path} {tree left : FileTree}

/-- A file that was written into a directory that is there. -/
theorem Wrote.of_writeFile {path : Path} {content : Bytes}
    (hmade : ∀ further, tree.Extends further → further.makeDirs dir = (further, .ok ()))
    (hwrite : tree.writeFile path content = .ok left) (hcwd : tree.Clear tree.cwd) :
    Wrote dir [(path, content)] tree left ∧ left.Clear left.cwd := by
  obtain ⟨loc, hne, hold, rfl, hlocate⟩ := writeFile_ok hwrite hcwd
  have hgrow : tree.Extends (tree.put loc (.file content)) := extends_put hne hold
  constructor
  · refine ⟨hgrow, ?_, ?_, ?_, fun _ further hfurther => hmade further (hgrow.trans hfurther)⟩
    · intro item hitem
      rw [List.mem_singleton.mp hitem]
      exact ⟨loc, hlocate⟩
    · intro before item after other hsplit hother _
      obtain ⟨rfl, rfl, rfl⟩ : before = [] ∧ item = (path, content) ∧ after = [] := by
        simpa [List.singleton_eq_append_iff] using hsplit
      obtain rfl : loc = other := Except.ok.inj (hlocate.symm.trans hother)
      exact tree.get?_put_self hne _
    · intro other
      by_cases heq : other = loc
      · rw [heq]
        exact Or.inr (Or.inr ⟨_, List.mem_singleton_self _, hlocate⟩)
      · exact Or.inl (tree.get?_put_of_ne heq _)
  · rw [cwd_put]
    exact hcwd.put (fun target => by simp) hne

/-- A document either is written, after which its directory is there, or only directories are made. In the
second case no file stands in its place, if its directory could be made at all. -/
theorem writeOutput_cases (dir : Path) (file text : String) (hcwd : tree.Clear tree.cwd) :
    (∃ left, writeOutput tree dir file text = (left, .ok (dir.join (utf8 file))) ∧
      Wrote dir [(dir.join (utf8 file), utf8 text)] tree left ∧ left.Clear left.cwd) ∨
    (∃ left e, writeOutput tree dir file text = (left, .error e) ∧ DirsMade dir.ancestors tree left ∧
      ((tree.makeDirs dir).2 = .ok () → ∀ loc, left.locate (dir.join (utf8 file)) = .ok loc →
        left.get? loc = some .dir)) := by
  have hdirs := (makeDirsFrom_made tree dir.ancestors).1
  rcases hmake : tree.makeDirs dir with ⟨made, outcome⟩
  rw [← makeDirs, hmake] at hdirs
  have hclear : made.Clear made.cwd := by
    rw [hdirs.grown.cwd]
    exact hdirs.clear hcwd
  cases outcome with
  | error e => exact Or.inr ⟨made, .io dir e, by rw [writeOutput, hmake], hdirs, fun h => by cases h⟩
  | ok =>
      cases hwrite : made.writeFile (dir.join (utf8 file)) (utf8 text) with
      | error e =>
          exact Or.inr ⟨made, .io (dir.join (utf8 file)) e, by simp only [writeOutput, hmake, hwrite], hdirs,
            fun _ loc hloc => get?_of_writeFile_error hwrite hloc⟩
      | ok left =>
          obtain ⟨hwrote, hleft⟩ :=
            Wrote.of_writeFile (fun further hgrow => makeDirs_again hmake hgrow) hwrite hclear
          exact Or.inl ⟨left, by simp only [writeOutput, hmake, hwrite], (Wrote.of_dirsMade hdirs).append hwrote, hleft⟩

/-! ### All documents -/

theorem writeAll_cons_ok (first : String × Document) {rest : List (String × Document)} {path : Path}
    (h : writeOutput tree dir (outputName format first.1) (render format first.1 first.2) = (left, .ok path)) :
    writeAll format dir tree (first :: rest) =
      { writeAll format dir left rest with
        log := written path :: (writeAll format dir left rest).log
        result := (writeAll format dir left rest).result.map (path :: ·) } := by
  rw [writeAll, h]

/-- Some documents are written, and the next one is refused. -/
structure Refused (format : Format) (dir : Path) (tree left : FileTree) (before : List (String × Document))
    (next : String × Document) (e : Error) : Prop where
  wrote : Wrote dir (before.map (outputFile format dir)) tree (writeAll format dir tree before).tree
  clear : (writeAll format dir tree before).tree.Clear (writeAll format dir tree before).tree.cwd
  error : writeOutput (writeAll format dir tree before).tree dir (outputName format next.1)
    (render format next.1 next.2) = (left, .error e)

namespace Refused

variable {middle : FileTree} {first next : String × Document} {before : List (String × Document)} {e : Error}

theorem cons (h : Refused format dir middle left before next e)
    (hwrite : writeOutput tree dir (outputName format first.1) (render format first.1 first.2) =
      (middle, .ok (outputPath format dir first.1)))
    (hwrote : Wrote dir [outputFile format dir first] tree middle) :
    Refused format dir tree left (first :: before) next e := by
  constructor
  all_goals rw [writeAll_cons_ok first hwrite]
  exacts [hwrote.append h.wrote, h.clear, h.error]

/-- Refusing a document adds directories at most, and leaves no file at its target. -/
theorem dirsMade (h : Refused format dir tree left before next e) :
    DirsMade dir.ancestors (writeAll format dir tree before).tree left ∧
      (before ≠ [] → ∀ loc, left.locate (outputPath format dir next.1) = .ok loc → left.get? loc = some .dir) := by
  obtain ⟨left', hwrite, -⟩ | ⟨left', e', hwrite, hdirs, htaken⟩ :=
    writeOutput_cases dir (outputName format next.1) (render format next.1 next.2) h.clear
  · cases h.error.symm.trans hwrite
  · cases h.error.symm.trans hwrite
    refine ⟨hdirs, fun hne => htaken ?_⟩
    rw [h.wrote.made (by simpa using hne) _ (.refl _)]

theorem wrote_left (h : Refused format dir tree left before next e) :
    Wrote dir (before.map (outputFile format dir)) tree left := by
  have hall := h.wrote.append (.of_dirsMade h.dirsMade.1)
  rwa [List.append_nil] at hall

/-- What was written before went elsewhere: where a document was written, another can be. -/
theorem apart {document : String × Document} {loc : Location} (h : Refused format dir tree left before next e)
    (hloc : left.locate (outputPath format dir next.1) = .ok loc) (hdocument : document ∈ before) :
    left.locate (outputPath format dir document.1) ≠ .ok loc := by
  intro hsame
  have hfile : outputFile format dir document ∈ before.map (outputFile format dir) := List.mem_map_of_mem hdocument
  obtain ⟨-, winner, -, -, -, -, hget⟩ := h.wrote_left.exists_last_file hfile hsame
  rw [h.dirsMade.2 (List.ne_nil_of_mem hdocument) loc hloc] at hget
  cases hget

end Refused

/-- Documents are all written, or those before the first that is refused. -/
theorem writeAll_cases (documents : List (String × Document)) (hcwd : tree.Clear tree.cwd) :
    (∃ left, writeAll format dir tree documents = ⟨left, [], documents.map fun d => written (outputPath format dir d.1),
        .ok (documents.map fun d => outputPath format dir d.1)⟩ ∧
      Wrote dir (documents.map (outputFile format dir)) tree left) ∨
    (∃ left before next after e, documents = before ++ next :: after ∧
      writeAll format dir tree documents = ⟨left, [], before.map fun d => written (outputPath format dir d.1),
        .error (.at .writing e)⟩ ∧
      Refused format dir tree left before next e) := by
  induction documents generalizing tree with
  | nil => exact Or.inl ⟨tree, rfl, .of_dirsMade (.refl _ tree)⟩
  | cons first rest ih =>
      obtain ⟨middle, hwrite, hwrote, hclear⟩ | ⟨left, e, hwrite, hdirs, -⟩ :=
        writeOutput_cases dir (outputName format first.1) (render format first.1 first.2) hcwd
      · obtain ⟨left, hall, hrest⟩ | ⟨left, before, next, after, e, rfl, hall, hnext⟩ := ih hclear
        · exact Or.inl ⟨left, by rw [writeAll_cons_ok first hwrite, hall]; rfl, hwrote.append hrest⟩
        · exact Or.inr ⟨left, first :: before, next, after, e, rfl, by rw [writeAll_cons_ok first hwrite, hall]; rfl,
            hnext.cons hwrite hwrote⟩
      · refine Or.inr ⟨left, [], first, rest, e, rfl, ?_, .of_dirsMade (.refl _ tree), hcwd, hwrite⟩
        simp only [writeAll, hwrite, List.map_nil]

end RouteBook.Generator
