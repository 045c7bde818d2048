import RouteBook.Proofs.Generator.Targets
import RouteBook.Proofs.Generator.Walk

/-! Loading documents again after they were written. What is written is never named like an input file, so it neither
replaces an input nor adds one, even if the output lies in the input directory. The documents that were loaded before
are loaded again, unless a directory that is named like an input file has got a path too long to be seen as one. -/

namespace RouteBook.Generator

open OpenApi (Document)
open FileTree

variable {format : Format} {dir : Path} {tree left : FileTree} {options : Options} {path : Path} {loc : Location}
  {found : List (String × Document)}

/-! ### What writing builds -/

theorem writeOutput_built (dir : Path) (file text : String) (hproper : tree.Proper) (hclear : ∀ loc, tree.Clear loc) :
    Built tree (writeOutput tree dir file text).1 := by
  have hbuilt := makeDirsFrom_built dir.ancestors hclear
  rw [← makeDirs] at hbuilt
  unfold writeOutput
  split
  · next made e hmake => rwa [hmake] at hbuilt
  · next made hmake =>
    rw [hmake] at hbuilt
    simp only
    split
    · exact hbuilt
    · next written hwrite =>
      exact hbuilt.trans (writeFile_built hwrite (hbuilt.proper hproper) (hbuilt.clear hclear))

theorem writeAll_built (documents : List (String × Document)) (hproper : tree.Proper)
    (hclear : ∀ loc, tree.Clear loc) : Built tree (writeAll format dir tree documents).tree := by
  induction documents generalizing tree with
  | nil => exact .refl
  | cons document rest ih =>
      have hbuilt := writeOutput_built dir (outputName format document.1) (render format document.1 document.2)
        hproper hclear
      obtain ⟨name, document⟩ := document
      rw [writeAll]
      split
      · next middle e hwrite => rwa [hwrite] at hbuilt
      · next middle path hwrite =>
        rw [hwrite] at hbuilt
        exact hbuilt.trans (ih (hbuilt.proper hproper) (hbuilt.clear hclear))

/-! ### Written files are no input files -/

theorem extension_outputName (format : Format) (name : String) :
    (Path.cutName (utf8 (outputName format name))).2 ≠ some inputExtension := by
  have hcut : ∀ front back : String, utf8 front ≠ [] → Path.dot ∉ utf8 back →
      (Path.cutName (utf8 (name ++ front) ++ Path.dot :: utf8 back)).2 = some (utf8 back) := by
    intro front back hfront hback
    rw [Path.cutName_append _ hback]
    simp [utf8_append, hfront]
  rw [outputName_eq]
  cases format with
  | markdown =>
      have hsplit : utf8 (name ++ outputSuffix .markdown) = utf8 (name ++ "-docs") ++ Path.dot :: utf8 "md" := by
        rw [utf8_append, utf8_append, List.append_assoc]
        rfl
      rw [hsplit, hcut _ _ (by decide) (by decide)]
      decide
  | openapi =>
      have hsplit : utf8 (name ++ outputSuffix .openapi) = utf8 (name ++ "-openapi") ++ Path.dot :: utf8 "yaml" := by
        rw [utf8_append, utf8_append, List.append_assoc]
        rfl
      rw [hsplit, hcut _ _ (by decide) (by decide)]
      decide

/-- Documents from files, written to a proper tree without links. -/
structure Output (format : Format) (dir : Path) (found : List (String × Document)) (tree left : FileTree) : Prop where
  proper : tree.Proper
  clear : ∀ loc, tree.Clear loc
  built : Built tree left
  wrote : Wrote dir (found.map (outputFile format dir)) tree left
  noSlash : ∀ document ∈ found, '/' ∉ document.1.toList

namespace Output

/-- Where a document was written, the name is not that of an input file. -/
theorem extension (h : Output format dir found tree left) {file : Path × Bytes} {name : Name}
    (hfile : file ∈ found.map (outputFile format dir)) (hloc : left.locate file.1 = .ok loc)
    (hname : loc.getLast? = some name) : (Path.cutName name).2 ≠ some inputExtension := by
  obtain ⟨document, hdocument, rfl⟩ := List.mem_map.mp hfile
  have hlast := getLast?_of_locate_join hloc (h.built.clear h.clear) (plain_outputName (h.noSlash document hdocument))
  obtain rfl : utf8 (outputName format document.1) = name := Option.some.inj (hlast.symm.trans hname)
  exact extension_outputName format document.1

theorem regrown (h : Output format dir found tree left) : Regrown tree left where
  proper := h.proper
  clear := h.clear
  built := h.built
  grown := h.wrote.grown
  fresh := by
    intro loc name entry hnone hentry hdir
    rcases h.wrote.frame (loc ++ [name]) with heq | ⟨-, hmade, -⟩ | ⟨file, hfile, hloc⟩
    · rw [heq, hnone] at hentry
      cases hentry
    · rw [hentry] at hmade
      exact absurd (Option.some.inj hmade) hdir
    · exact h.extension hfile hloc List.getLast?_concat

/-- An input file is read as before. -/
theorem readFile_eq (h : Output format dir found tree left) {content : Bytes} (hread : tree.readFile path = .ok content)
    (hextension : path.extension? = some inputExtension) : left.readFile path = .ok content := by
  obtain ⟨name, hname, hcut⟩ := Option.bind_eq_some_iff.mp hextension
  obtain ⟨loc, hloc, hget⟩ := readFile_eq_ok_iff.mp hread
  have hlast := getLast?_of_fileName? hloc (by simp [hget]) hname h.clear
  refine readFile_eq_ok_iff.mpr ⟨loc, locate_extends h.wrote.grown hloc, ?_⟩
  rcases h.wrote.frame loc with heq | ⟨hnone, -⟩ | ⟨file, hfile, hfound⟩
  · rw [heq, hget]
  · rw [hget] at hnone
    cases hnone
  · exact absurd hcut (h.extension hfile hfound hlast)

end Output

/-! ### The documents of a second run -/

theorem documents_of_input {input : Path} (hinput : options.input = some input) :
    documents tree options =
      if filesWithin tree pathLimit input = [] then .error (.noInput input)
      else (filesWithin tree pathLimit input).mapM (loadDocument tree) := by
  simp only [documents, hinput, inputs, inputsWithin_eq, bind, Except.bind]

theorem exists_content_of_loadDocument {document : String × Document} (h : loadDocument tree path = .ok document) :
    ∃ content, tree.readFile path = .ok content := by
  cases hread : tree.readFile path with
  | ok content => exact ⟨content, rfl⟩
  | error e =>
      rw [loadDocument, readText, hread] at h
      cases h

theorem loadDocument_congr (h : left.readFile path = tree.readFile path) :
    loadDocument left path = loadDocument tree path := by
  rw [loadDocument, loadDocument, readText, readText, h]

/-- The input of a run that loads its documents is there. -/
theorem exists_locate_of_documents {input : Path} (hinput : options.input = some input)
    (hfound : documents tree options = .ok found) : ∃ loc, tree.locate input = .ok loc := by
  rw [documents_of_input hinput] at hfound
  split_ifs at hfound with hempty
  by_cases hdir : tree.isDir input = true
  · obtain ⟨loc, hloc, -⟩ := isDir_iff.mp hdir
    exact ⟨loc, hloc⟩
  · rw [filesWithin_of_not_dir (Bool.eq_false_of_not_eq_true hdir)] at hfound hempty
    obtain ⟨file, hfile⟩ := List.exists_mem_of_ne_nil _ hempty
    obtain ⟨document, hload⟩ := exists_ok_of_mem_mapM hfound hfile
    obtain ⟨content, hread⟩ := exists_content_of_loadDocument hload
    obtain ⟨loc, hloc, -⟩ := readFile_eq_ok_iff.mp ((mem_inputFile_iff.mp hfile).1 ▸ hread)
    exact ⟨loc, hloc⟩

/-- A second run loads the documents that the first one loaded. -/
theorem Output.documents_eq (h : Output format dir found tree left) {input : Path} (hinput : options.input = some input)
    (hfound : documents tree options = .ok found) (hover : ¬Overlong left input) :
    documents left options = .ok found := by
  obtain ⟨loc, hloc⟩ := exists_locate_of_documents hinput hfound
  have hfiles := h.regrown.filesWithin_eq hover hloc (Nat.le_add_right pathLimit input.length)
  rw [documents_of_input hinput] at hfound ⊢
  split_ifs at hfound with hempty
  rw [hfiles, if_neg hempty, ← hfound]
  refine mapM_congr_of_mem fun file hfile => ?_
  obtain ⟨document, hload⟩ := exists_ok_of_mem_mapM hfound hfile
  obtain ⟨content, hread⟩ := exists_content_of_loadDocument hload
  apply loadDocument_congr
  rw [hread, h.readFile_eq hread (extension?_of_mem_filesWithin hfile)]

/-- A run that loads its documents has no directory named like an input file too far below its input. -/
theorem not_overlong_of_documents {input : Path} (hinput : options.input = some input)
    (hfound : documents tree options = .ok found) (hproper : tree.Proper) (hclear : ∀ loc, tree.Clear loc) :
    ¬Overlong tree input := by
  intro hover
  obtain ⟨file, hfile, hlong⟩ := hover.exists_file hproper hclear (Nat.le_add_right pathLimit input.length)
  rw [documents_of_input hinput] at hfound
  split_ifs at hfound
  obtain ⟨document, hload⟩ := exists_ok_of_mem_mapM hfound hfile
  obtain ⟨content, hread⟩ := exists_content_of_loadDocument hload
  obtain ⟨loc, hloc, -⟩ := readFile_eq_ok_iff.mp hread
  obtain ⟨slash, hreach, -⟩ := locate_eq_ok_iff.mp hloc
  exact absurd hreach.short (not_lt.mpr hlong)

/-- The documents of a second run are those of the first, unless there is a directory that cannot be seen as one. -/
theorem documents_again (hproper : tree.Proper) (hclear : ∀ loc, tree.Clear loc)
    (hfound : documents tree options = .ok found) (hbuilt : Built tree left)
    (hwrote : Wrote dir (found.map (outputFile options.format dir)) tree left)
    (hover : ∀ input, options.input = some input → ¬Overlong left input) : documents left options = .ok found := by
  cases hinput : options.input with
  | none =>
      simp only [documents, hinput] at hfound ⊢
      exact hfound
  | some input =>
      have houtput : Output options.format dir found tree left :=
        ⟨hproper, hclear, hbuilt, hwrote, noSlash_of_documents hinput hfound⟩
      exact houtput.documents_eq hinput hfound (hover input hinput)

end RouteBook.Generator
