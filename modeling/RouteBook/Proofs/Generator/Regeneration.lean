import RouteBook.Proofs.Generator.Reloading
import RouteBook.Proofs.Generator.Runs

/-! Running the generator again. The paths that were written lead to files, so the same documents can be written over
them, and since every write is done again in the same order, the tree ends as it was. A second run then leaves the tree
as the first one left it. There is one exception: a new directory whose path, taken from the input, is too long for the
system is not seen to be a directory. If it is named like an input file, the second run takes it for one and fails. -/

namespace RouteBook.Generator

open OpenApi (Document)
open FileTree

variable {format : Format} {dir : Path} {tree left : FileTree} {options : Options} {path : Path} {loc : Location}
  {found : List (String × Document)} {arguments : Arguments} {limit : Option Nat}

/-! ### Writing again -/

theorem writeFile_of_file {old content : Bytes} (hloc : tree.locate path = .ok loc)
    (hfile : tree.get? loc = some (.file old)) : tree.writeFile path content = .ok (tree.put loc (.file content)) := by
  obtain ⟨slash, hreach, hslash⟩ := locate_eq_ok_iff.mp hloc
  have hnot : ¬(slash = true ∨ tree.get? loc = some .dir) := by
    rintro (hs | hdir)
    · rw [hslash hs] at hfile
      cases hfile
    · rw [hdir] at hfile
      cases hfile
  rw [writeFile, place_eq_ok_iff.mpr hreach]
  simp only [bind, Except.bind, Bool.or_eq_true, decide_eq_true_eq]
  rw [if_neg hnot]

/-- Trees with the locations of another, and the same there but for the contents of files. -/
structure Rewritten (left further : FileTree) : Prop where
  grown : left.Extends further
  keys : further.entries.map Prod.fst = left.entries.map Prod.fst

/-- Documents whose files are there are written over them. -/
theorem writeAll_rewritten {further : FileTree} (documents : List (String × Document))
    (hmade : documents ≠ [] → ∀ further, left.Extends further → further.makeDirs dir = (further, .ok ()))
    (hfiles : ∀ document ∈ documents, ∃ loc old, left.locate (outputPath format dir document.1) = .ok loc ∧
      left.get? loc = some (.file old)) (h : Rewritten left further) :
    (writeAll format dir further documents).result = .ok (documents.map fun d => outputPath format dir d.1) ∧
      Rewritten left (writeAll format dir further documents).tree := by
  induction documents generalizing further with
  | nil => exact ⟨rfl, h⟩
  | cons document rest ih =>
      obtain ⟨loc, old, hloc, hget⟩ := hfiles document List.mem_cons_self
      obtain ⟨entry, hentry, houtline⟩ := h.grown.exists_outline hget
      obtain ⟨old, rfl⟩ : ∃ content, entry = .file content := by
        cases entry with
        | file content => exact ⟨content, rfl⟩
        | dir => cases houtline
        | link target => cases houtline
      have hlocFurther := locate_extends h.grown hloc
      have hne : loc ≠ [] := by
        rintro rfl
        rw [get?_nil] at hget
        cases hget
      have hwrite : writeOutput further dir (outputName format document.1) (render format document.1 document.2) =
          (further.put loc (.file (utf8 (render format document.1 document.2))),
            .ok (outputPath format dir document.1)) := by
        have hput : further.writeFile (dir.join (utf8 (outputName format document.1)))
            (utf8 (render format document.1 document.2)) = .ok _ := writeFile_of_file hlocFurther hentry
        rw [writeOutput, hmade (by simp) further h.grown]
        simp only [hput]
        rfl
      have hnext : Rewritten left (further.put loc (.file (utf8 (render format document.1 document.2)))) := by
        constructor
        · refine h.grown.trans (extends_put hne fun other hother => ?_)
          rw [Option.some.inj (hother.symm.trans hentry)]
          rfl
        · rw [keys_put, if_pos, h.keys]
          rw [← get?_of_ne_nil _ hne, hentry]
          rfl
      obtain ⟨hresult, hrest⟩ := ih (fun _ => hmade (by simp))
        (fun other hother => hfiles other (List.mem_cons_of_mem document hother)) hnext
      rw [writeAll_cons_ok document hwrite]
      refine ⟨?_, hrest⟩
      simp only [hresult]
      rfl

/-- Writing the same documents again changes nothing. -/
theorem writeAll_again (hwrote : Wrote dir (found.map (outputFile format dir)) tree left) (hproper : left.Proper)
    (hclear : ∀ loc, left.Clear loc) :
    (writeAll format dir left found).result = .ok (found.map fun d => outputPath format dir d.1) ∧
      (writeAll format dir left found).tree = left := by
  have hfiles : ∀ document ∈ found, ∃ loc old, left.locate (outputPath format dir document.1) = .ok loc ∧
      left.get? loc = some (.file old) := by
    intro document hdocument
    have hfile : outputFile format dir document ∈ found.map (outputFile format dir) := List.mem_map_of_mem hdocument
    obtain ⟨loc, hloc⟩ := hwrote.located _ hfile
    obtain ⟨-, winner, -, -, -, -, hget⟩ := hwrote.exists_last_file hfile hloc
    exact ⟨loc, winner.2, hloc, hget⟩
  have hmade : found ≠ [] → ∀ further, left.Extends further → further.makeDirs dir = (further, .ok ()) :=
    fun hne => hwrote.made (by simpa using hne)
  obtain ⟨hresult, hrewritten⟩ := writeAll_rewritten found hmade hfiles ⟨.refl left, rfl⟩
  refine ⟨hresult, ?_⟩
  obtain ⟨again, hall, hsecond⟩ | ⟨again, before, next, after, e, -, hall, -⟩ := writeAll_cases found (hclear left.cwd)
  · have hbuilt : Built left (writeAll format dir left found).tree := writeAll_built found hproper hclear
    rw [hall] at hrewritten hbuilt ⊢
    refine hproper.ext (hbuilt.proper hproper) hrewritten.grown.cwd hrewritten.keys fun loc => ?_
    rcases hsecond.frame loc with heq | ⟨hnone, hdir, -⟩ | ⟨file, hfile, hloc⟩
    · exact heq
    · have hne : loc ≠ [] := by
        rintro rfl
        rw [get?_nil] at hnone
        cases hnone
      obtain ⟨entry, hentry⟩ := (mem_keys_iff hne).mp (hrewritten.keys ▸ (mem_keys_iff hne).mpr ⟨_, hdir⟩)
      rw [hnone] at hentry
      cases hentry
    · obtain ⟨before, winner, after, hsplit, hwinner, hafter, hget⟩ := hsecond.exists_last_file hfile hloc
      obtain ⟨other, hother⟩ := hwrote.located winner (by simp [hsplit])
      obtain rfl : other = loc := Except.ok.inj ((locate_extends hrewritten.grown hother).symm.trans hwinner)
      have hlast : ∀ later ∈ after, left.locate later.1 ≠ .ok other := by
        intro later hlater hsame
        exact hafter later hlater (locate_extends hrewritten.grown hsame)
      rw [hget, hwrote.last before winner after other hsplit hother hlast]
  · rw [hall] at hresult
    cases hresult

/-! ### Second runs -/

/-- What a run that succeeds left behind. -/
theorem exists_wrote_of_run {paths : List Path} (hproper : tree.Proper) (hclear : ∀ loc, tree.Clear loc)
    (hoptions : effective tree arguments = .ok options) (hdir : options.output = some dir)
    (hrun : (run tree arguments limit).result = .ok paths) :
    ∃ found, documents tree options = .ok found ∧ paths = (found.map fun d => outputPath options.format dir d.1) ∧
      Wrote dir (found.map (outputFile options.format dir)) tree (run tree arguments limit).tree ∧
      Built tree (run tree arguments limit).tree := by
  obtain ⟨found, hfound⟩ := documents_of_run_ok hoptions hrun
  have hbuilt : Built tree (writeAll options.format dir tree found).tree := writeAll_built found hproper hclear
  rw [run_of_documents hoptions hfound hdir] at hrun ⊢
  obtain ⟨left, hall, hwrote⟩ | ⟨left, before, next, after, e, -, hall, -⟩ := writeAll_cases found (hclear tree.cwd)
  · rw [hall] at hrun hbuilt ⊢
    exact ⟨found, hfound, (Except.ok.inj hrun).symm, hwrote, hbuilt⟩
  · rw [hall] at hrun
    cases hrun

/-- A second run fails where a directory named like an input file is too far below the input. -/
theorem run_fails_of_overlong {input : Path} {paths : List Path} (hproper : tree.Proper) (hclear : ∀ loc, tree.Clear loc)
    (hoptions : effective tree arguments = .ok options) (hinput : options.input = some input)
    (hover : Overlong tree input) : (run tree arguments limit).result ≠ .ok paths := by
  intro hrun
  obtain ⟨found, hfound⟩ := documents_of_run_ok hoptions hrun
  exact not_overlong_of_documents hinput hfound hproper hclear hover

/-- A run on the tree that a run left, with the same options, gives the same paths and leaves the tree as it is, if and
only if no directory named like an input file has, as the walk through the input comes to it, a path that is too long. -/
theorem run_again_iff {paths : List Path} (hproper : tree.Proper) (hfree : tree.LinkFree)
    (hoptions : effective tree arguments = .ok options) (hdir : options.output = some dir)
    (hrun : (run tree arguments limit).result = .ok paths)
    (hconfig : (Config.load (run tree arguments limit).tree arguments.config).1 = (Config.load tree arguments.config).1) :
    ((run (run tree arguments limit).tree arguments limit).result = .ok paths ∧
      (run (run tree arguments limit).tree arguments limit).tree = (run tree arguments limit).tree) ↔
    ∀ input, options.input = some input → ¬Overlong (run tree arguments limit).tree input := by
  have hclear := hfree.clear
  obtain ⟨found, hfound, rfl, hwrote, hbuilt⟩ := exists_wrote_of_run hproper hclear hoptions hdir hrun
  generalize (run tree arguments limit).tree = left at hwrote hbuilt hconfig ⊢
  have hagain : effective left arguments = .ok options := by rw [effective, hconfig, ← effective, hoptions]
  constructor
  · rintro ⟨hsecond, -⟩ input hinput hover
    exact run_fails_of_overlong (hbuilt.proper hproper) (hbuilt.clear hclear) hagain hinput hover hsecond
  · intro hover
    have hdocuments := documents_again hproper hclear hfound hbuilt hwrote hover
    rw [run_of_documents hagain hdocuments hdir]
    exact writeAll_again hwrote (hbuilt.proper hproper) (hbuilt.clear hclear)

/-! ### A directory in the input -/

/-- One input file in one directory. -/
def inward : FileTree where
  entries := [([utf8 "in"], .dir), ([utf8 "in", utf8 "a.json"], .file (utf8 smallText))]
  cwd := []

/-- The path of the input directory with more slashes than it needs. -/
def slashed (more : Nat) : Path := utf8 "in" ++ Path.slash :: List.replicate more Path.slash

/-- The output goes into the input, to a directory that is named like an input file. -/
def inwardArguments (more : Nat) : Arguments where
  file := some (slashed more)
  output := some (utf8 "in/oo.json")

def inwardOptions (more : Nat) : Options where
  input := some (slashed more)
  format := .markdown
  output := some (utf8 "in/oo.json")
  name := defaultName

/-- The tree after a run that wrote a text. -/
def inwardAfter (text : String) : FileTree where
  entries := inward.entries ++ [([utf8 "in", utf8 "oo.json"], .dir),
    ([utf8 "in", utf8 "oo.json", utf8 "a-docs.md"], .file (utf8 text))]
  cwd := []

theorem pieces_replicate (more : Nat) :
    Text.pieces Path.slash (List.replicate more Path.slash) = List.replicate (more + 1) [] := by
  induction more with
  | zero => rfl
  | succ more ih => rw [List.replicate_succ, Text.pieces, if_pos rfl, ih, ← List.replicate_succ]

theorem length_slashed (more : Nat) : (slashed more).length = more + 3 := by
  have hin : (utf8 "in").length = 2 := rfl
  rw [slashed, List.length_append, List.length_cons, List.length_replicate, hin]
  omega

theorem getLast?_slashed (more : Nat) : (slashed more).getLast? = some Path.slash := by
  rw [slashed, ← List.replicate_succ, List.replicate_succ', ← List.append_assoc, List.getLast?_concat]

theorem steps_slashed (more : Nat) : (slashed more).steps = [utf8 "in", []] := by
  have hin : Text.pieces Path.slash (utf8 "in") = [utf8 "in"] := rfl
  rw [Path.steps, Path.pieces, slashed, Text.pieces_append, hin, pieces_replicate, ← slashed,
    if_pos (getLast?_slashed more), List.filter_append]
  have hempty : (List.replicate (more + 1) ([] : Name)).filter (· ≠ []) = [] := by
    rw [List.filter_eq_nil_iff]
    intro piece hpiece
    simp [List.eq_of_mem_replicate hpiece]
  rw [hempty]
  rfl

theorem join_slashed (more : Nat) {name : Name} (hname : Path.slash ∉ name) :
    (slashed more).join name = slashed more ++ name := by
  rw [Path.join_of_not_mem hname, if_pos]
  simp [getLast?_slashed]

theorem locate_slashed {tree : FileTree} {more : Nat} (hcwd : tree.cwd = []) (hdir : tree.get? [utf8 "in"] = some .dir)
    (hshort : more + 3 < pathLimit) : tree.locate (slashed more) = .ok [utf8 "in"] := by
  refine locate_eq_ok_iff.mpr ⟨true, ⟨?_, ?_, ?_, ?_⟩, fun _ => hdir⟩
  · rw [Bool.eq_false_iff, ne_eq, List.contains_iff_mem, slashed]
    simp [List.mem_replicate, Path.slash]
    decide
  · intro hnil
    have hlength := length_slashed more
    simp [hnil] at hlength
  · rwa [length_slashed]
  · have hstart : tree.start (slashed more) = [] := by
      rw [start, hcwd, ite_self]
    rw [hstart, steps_slashed]
    exact .enter tree.get?_nil ⟨by decide, by decide, by decide, by decide⟩ hdir (by simp) (.slash rfl)

theorem inward_proper : inward.Proper := by decide

theorem inward_linkFree : inward.LinkFree := by decide

theorem inward_load : (Config.load inward (utf8 configFile)).1 = .ok {} := by cbv

theorem inwardAfter_load (text : String) : (Config.load (inwardAfter text) (utf8 configFile)).1 = .ok {} := by cbv

/-- Without a configuration file the options are those of the arguments. -/
theorem effective_inwardArguments {tree : FileTree} (more : Nat)
    (hload : (Config.load tree (utf8 configFile)).1 = .ok {}) :
    effective tree (inwardArguments more) = .ok (inwardOptions more) := by
  have hconfig : (Config.load tree (inwardArguments more).config).1 = .ok {} := hload
  rw [effective, hconfig]
  rfl

theorem inward_effective (more : Nat) : effective inward (inwardArguments more) = .ok (inwardOptions more) :=
  effective_inwardArguments more inward_load

theorem inward_write (text : String) : writeOutput inward (utf8 "in/oo.json") (outputName .markdown "a") text =
    (inwardAfter text, .ok (utf8 "in/oo.json/a-docs.md")) := by
  cbv

/-- The one input file is found and read, as long as its path is not too long. -/
theorem inward_documents (more : Nat) (hshort : more + 9 < pathLimit) :
    ∃ document, documents inward (inwardOptions more) = .ok [("a", document)] := by
  have hloc : inward.locate (slashed more) = .ok [utf8 "in"] := locate_slashed rfl rfl (by omega)
  have hdir : inward.get? [utf8 "in"] = some .dir := rfl
  have hentry : inward.get? ([utf8 "in"] ++ [utf8 "a.json"]) = some (.file (utf8 smallText)) := rfl
  have hclear := inward_linkFree.clear
  have hname : Path.Plain (utf8 "a.json") := (inward_proper.stands_of_get? hentry).2.plain
  have hlength : ((slashed more).join (utf8 "a.json")).length < pathLimit := by
    have ha : (utf8 "a.json").length = 6 := rfl
    rw [join_slashed more hname.noSlash, List.length_append, length_slashed, ha]
    omega
  have hjoin := locate_join inward_proper hclear hloc hentry hlength
  have hfileDir : inward.isDir ((slashed more).join (utf8 "a.json")) = false := by
    rw [isDir, hjoin]
    rfl
  have hextension : ((slashed more).join (utf8 "a.json")).extension? = some inputExtension := by
    rw [Path.extension?_join hname]
    decide
  have hinputs : inputs inward (slashed more) = .ok [(slashed more).join (utf8 "a.json")] := by
    have hchildren : ((inward.children [utf8 "in"]).map Prod.fst).mergeSort bytesLe = [utf8 "a.json"] := by cbv
    have hlimit : pathLimit = 4095 + 1 := rfl
    rw [inputs, inputsWithin_eq, hlimit, filesWithin_of_dir hloc hdir, hchildren, List.flatMap_singleton,
      filesWithin_of_not_dir hfileDir, inputFile, if_pos hextension]
  have hdocument : documentName ((slashed more).join (utf8 "a.json")) = "a" := by
    rw [documentName, Path.stem?, Path.fileName?_join hname]
    cbv
  have hinput : (inwardOptions more).input = some (slashed more) := rfl
  obtain ⟨document, -, hfound⟩ := documents_of_smallText hinput hinputs (by simp) (by simpa using ⟨_, hjoin, hentry⟩)
  refine ⟨document, ?_⟩
  simpa only [List.map_cons, List.map_nil, hdocument] using hfound

theorem inward_run (more : Nat) (hshort : more + 9 < pathLimit) :
    ∃ text, (run inward (inwardArguments more) none).result = .ok [utf8 "in/oo.json/a-docs.md"] ∧
      (run inward (inwardArguments more) none).tree = inwardAfter text := by
  obtain ⟨document, hfound⟩ := inward_documents more hshort
  refine ⟨render .markdown "a" document, ?_⟩
  rw [run_of_documents (inward_effective more) hfound rfl, inwardOptions,
    writeAll_cons_ok ("a", document) (inward_write _)]
  exact ⟨rfl, rfl⟩

/-- With as many slashes as still let the input file be read, the new directory is too far below: the second run takes
it for an input file and fails. -/
theorem run_again_fails : inward.Proper ∧ inward.LinkFree ∧
    effective inward (inwardArguments 4086) = .ok (inwardOptions 4086) ∧
    (inwardOptions 4086).output = some (utf8 "in/oo.json") ∧
    (run inward (inwardArguments 4086) none).result = .ok [utf8 "in/oo.json/a-docs.md"] ∧
    (Config.load (run inward (inwardArguments 4086) none).tree (inwardArguments 4086).config).1 =
      (Config.load inward (inwardArguments 4086).config).1 ∧
    ∀ paths, (run (run inward (inwardArguments 4086) none).tree (inwardArguments 4086) none).result ≠ .ok paths := by
  obtain ⟨text, hrun, htree⟩ := inward_run 4086 (by decide)
  obtain ⟨found, -, -, -, hbuilt⟩ :=
    exists_wrote_of_run inward_proper inward_linkFree.clear (inward_effective 4086) rfl hrun
  rw [htree] at hbuilt ⊢
  have hproper := hbuilt.proper inward_proper
  have hentry : (inwardAfter text).get? ([utf8 "in"] ++ [utf8 "oo.json"]) = some .dir := rfl
  have hname := (hproper.stands_of_get? hentry).2.plain
  have hlength : ((slashed 4086).join (utf8 "oo.json")).length = 4096 := by
    have hoo : (utf8 "oo.json").length = 7 := rfl
    rw [join_slashed 4086 hname.noSlash, List.length_append, length_slashed, hoo]
  have hover : Overlong (inwardAfter text) (slashed 4086) := by
    refine ⟨[utf8 "in"], [], utf8 "oo.json", locate_slashed rfl rfl (by decide), rfl, ?_, ?_, ?_⟩
    · rw [List.foldl_nil, Path.extension?_join hname]
      decide
    · rw [List.foldl_nil, length_slashed]
      decide
    · rw [List.foldl_nil, hlength]
      decide
  have hagain := effective_inwardArguments 4086 (inwardAfter_load text)
  refine ⟨inward_proper, inward_linkFree, inward_effective 4086, rfl, hrun, ?_, fun paths => ?_⟩
  · exact (inwardAfter_load text).trans inward_load.symm
  · exact run_fails_of_overlong hproper (hbuilt.clear inward_linkFree.clear) hagain rfl hover

/-- The new directory is walked by the second run, and nothing changes. -/
theorem run_again_iff_inward : inward.Proper ∧ inward.LinkFree ∧
    effective inward (inwardArguments 0) = .ok (inwardOptions 0) ∧
    (run inward (inwardArguments 0) none).result = .ok [utf8 "in/oo.json/a-docs.md"] ∧
    (run inward (inwardArguments 0) none).tree ≠ inward ∧
    (run (run inward (inwardArguments 0) none).tree (inwardArguments 0) none).result = .ok [utf8 "in/oo.json/a-docs.md"] ∧
    (run (run inward (inwardArguments 0) none).tree (inwardArguments 0) none).tree =
      (run inward (inwardArguments 0) none).tree := by
  obtain ⟨text, hrun, htree⟩ := inward_run 0 (by decide)
  have hconfig : (Config.load (run inward (inwardArguments 0) none).tree (inwardArguments 0).config).1 =
      (Config.load inward (inwardArguments 0).config).1 := by
    rw [htree]
    exact (inwardAfter_load text).trans inward_load.symm
  have hshort : ∀ input, (inwardOptions 0).input = some input →
      ¬Overlong (run inward (inwardArguments 0) none).tree input := by
    rintro input hinput ⟨loc, names, name, hloc, hget, -, -, hlong⟩
    cases hinput
    rw [htree] at hloc hget
    have hin : (inwardAfter text).locate (slashed 0) = .ok [utf8 "in"] := locate_slashed rfl rfl (by decide)
    obtain rfl : [utf8 "in"] = loc := Except.ok.inj (hin.symm.trans hloc)
    rw [get?_of_ne_nil _ (by simp)] at hget
    obtain ⟨before, after, hentries, -⟩ := List.lookup_eq_some_iff.mp hget
    have hmem : ([utf8 "in"] ++ names ++ [name], Entry.dir) ∈ (inwardAfter text).entries := by simp [hentries]
    have honly : names ++ [name] = [utf8 "oo.json"] := by simpa [inwardAfter, inward] using hmem
    obtain ⟨rfl, heq⟩ := List.append_singleton_inj.mp (honly.trans (List.nil_append _).symm)
    rw [heq] at hlong
    revert hlong
    decide
  have hagain := (run_again_iff inward_proper inward_linkFree (inward_effective 0) rfl hrun hconfig).mpr hshort
  refine ⟨inward_proper, inward_linkFree, inward_effective 0, hrun, ?_, hagain⟩
  intro hsame
  rw [htree] at hsame
  have hlength := congrArg (fun tree => tree.entries.length) hsame
  simp [inwardAfter] at hlength

end RouteBook.Generator
