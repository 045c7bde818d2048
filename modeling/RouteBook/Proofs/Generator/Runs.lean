import Mathlib
import RouteBook.Proofs.FileTree.Ancestors
import RouteBook.Proofs.Generator.Targets

/-! Whole runs. Everything is loaded before anything is written, so a run that fails while it reads leaves no
trace, and one that fails at a document leaves exactly the documents before it. A run that succeeds returns one
path for each document. It loses none of them if and only if their names are different, apart from links that
lead two names to one file. -/

namespace RouteBook.Generator

open OpenApi (Document)
open FileTree

variable {tree : FileTree} {arguments : Arguments} {limit : Option Nat} {options : Options} {dir : Path}
  {found : List (String × Document)} {e : Error} {failure : Failure}

/-! ### The course of a run -/

/-- The options that hold for a run, once its configuration is read. -/
def effective (tree : FileTree) (arguments : Arguments) : Except Error Options :=
  (Config.load tree arguments.config).1.map (Options.resolve arguments)

/-- The events before the first document is loaded. -/
def preamble (tree : FileTree) (arguments : Arguments) (options : Options) : List Log.Event :=
  (Config.load tree arguments.config).2 ++ [started options]

theorem load_debug (tree : FileTree) (path : Path) : ∀ event ∈ (Config.load tree path).2, event.level = .debug := by
  unfold Config.load
  split
  · split <;> simp
  · split_ifs <;> simp

theorem preamble_debug : ∀ event ∈ preamble tree arguments options, event.level = .debug := by
  intro event hevent
  rcases List.mem_append.mp hevent with hevent | hevent
  · exact load_debug tree arguments.config event hevent
  · rw [List.mem_singleton.mp hevent, started]

theorem run_of_effective_error (h : effective tree arguments = .error e) :
    run tree arguments limit = ⟨tree, [], (Config.load tree arguments.config).2, .error (.at .configuring e)⟩ := by
  unfold effective at h
  rcases hload : Config.load tree arguments.config with ⟨outcome, log⟩
  rw [hload] at h
  cases outcome with
  | error cause =>
      cases h
      rw [run, hload]
  | ok config => cases h

theorem exists_config (h : effective tree arguments = .ok options) :
    ∃ config log, Config.load tree arguments.config = (.ok config, log) ∧
      options = Options.resolve arguments config := by
  unfold effective at h
  rcases hload : Config.load tree arguments.config with ⟨outcome, log⟩
  rw [hload] at h
  cases outcome with
  | error cause => cases h
  | ok config =>
      cases h
      exact ⟨config, log, rfl, rfl⟩

theorem run_of_documents_error (h : effective tree arguments = .ok options)
    (hfound : documents tree options = .error e) :
    run tree arguments limit = ⟨tree, [], preamble tree arguments options, .error (.at .loading e)⟩ := by
  obtain ⟨config, log, hload, rfl⟩ := exists_config h
  simp only [run, preamble, hload, hfound]

/-- A run with an output directory, once its documents are loaded. -/
theorem run_of_documents (h : effective tree arguments = .ok options) (hfound : documents tree options = .ok found)
    (hdir : options.output = some dir) :
    run tree arguments limit =
      { writeAll options.format dir tree found with
        log := preamble tree arguments options ++ (writeAll options.format dir tree found).log } := by
  obtain ⟨config, log, hload, rfl⟩ := exists_config h
  simp only [run, preamble, hload, hfound, hdir]

/-- A run without one prints. -/
theorem run_of_printing (h : effective tree arguments = .ok options) (hfound : documents tree options = .ok found)
    (hdir : options.output = none) :
    run tree arguments limit =
      { printAll options.format limit tree found with
        log := preamble tree arguments options ++ (printAll options.format limit tree found).log } := by
  obtain ⟨config, log, hload, rfl⟩ := exists_config h
  simp only [run, preamble, hload, hfound, hdir]

theorem documents_of_run_ok {paths : List Path} (h : effective tree arguments = .ok options)
    (hrun : (run tree arguments limit).result = .ok paths) : ∃ found, documents tree options = .ok found := by
  cases hfound : documents tree options with
  | ok found => exact ⟨found, rfl⟩
  | error e =>
      rw [run_of_documents_error h hfound] at hrun
      cases hrun

/-! ### Runs that succeed -/

/-- After a run that succeeds each path holds the last of the documents that lead to the same file. No document
is lost if and only if the names differ and documents with one target have one text; without links it is the
names alone. The working directory is the place where its way ends, so no link is on that way. -/
theorem run_kept_iff {paths : List Path} (hcwd : tree.Clear tree.cwd)
    (hoptions : effective tree arguments = .ok options) (hdir : options.output = some dir)
    (hrun : (run tree arguments limit).result = .ok paths) :
    ∃ found, documents tree options = .ok found ∧
      paths = (found.map fun document => outputPath options.format dir document.1) ∧
      LastKept options.format dir found (run tree arguments limit).tree ∧
      (Kept options.format dir found (run tree arguments limit).tree ↔
        (found.map Prod.fst).Nodup ∧ Agreeing options.format dir found (run tree arguments limit).tree) ∧
      (tree.LinkFree →
        (Kept options.format dir found (run tree arguments limit).tree ↔ (found.map Prod.fst).Nodup)) := by
  obtain ⟨found, hfound⟩ := documents_of_run_ok hoptions hrun
  rw [run_of_documents hoptions hfound hdir] at hrun ⊢
  obtain ⟨left, hall, hwrote⟩ | ⟨left, before, next, after, e, -, hall, -⟩ := writeAll_cases found hcwd
  · rw [hall] at hrun ⊢
    refine ⟨found, hfound, (Except.ok.inj hrun).symm, hwrote.lastKept, hwrote.kept_iff hfound, fun hfree => ?_⟩
    rw [hwrote.kept_iff hfound]
    refine ⟨And.left, fun hnames => ⟨hnames, agreeing_of_clear (fun loc => ?_) hfound hnames⟩⟩
    exact hwrote.clear (hfree.clear loc)
  · rw [hall] at hrun
    cases hrun

/-- A small document. -/
def smallText : String :=
  "\x7b\"openapi\":\"3.1.0\",\"info\":\x7b\"title\":\"\",\"version\":\"\"\x7d,\"paths\":\x7b\x7d\x7d"

/-- It is read as a document without routes. -/
theorem smallText_document : ∃ document, Document.parse smallText = .ok document ∧ Routes.collect document = [] := by
  have h : (Document.parse smallText).toOption.map Routes.collect = some [] := by cbv
  cases hparse : Document.parse smallText with
  | error fault => rw [hparse] at h; cases h
  | ok document =>
      rw [hparse] at h
      exact ⟨document, rfl, Option.some.inj h⟩

theorem loadDocument_of_readText {path : Path} {text : String} {document : Document}
    (hread : tree.readText path = .ok text) (hparse : Document.parse text = .ok document) :
    loadDocument tree path = .ok (documentName path, document) := by
  simp only [loadDocument, hread, hparse]

/-- Where all inputs are small documents, they are loaded under the names of their files. -/
theorem documents_of_smallText {input : Path} {files : List Path} (hinput : options.input = some input)
    (hfiles : inputs tree input = .ok files) (hne : files ≠ [])
    (hsmall : ∀ file ∈ files, ∃ loc, tree.locate file = .ok loc ∧ tree.get? loc = some (.file (utf8 smallText))) :
    ∃ document, Routes.collect document = [] ∧
      documents tree options = .ok (files.map fun file => (documentName file, document)) := by
  obtain ⟨document, hparse, hroutes⟩ := smallText_document
  refine ⟨document, hroutes, ?_⟩
  simp only [documents, hinput, hfiles, ok_bind, if_neg hne]
  rw [mapM_eq_ok_iff, List.forall₂_map_right_iff, List.forall₂_same]
  intro file hfile
  exact loadDocument_of_readText (readText_of_readFile (readFile_eq_ok_iff.mpr (hsmall file hfile))) hparse

/-- Two documents of one name, and a third with a directory in the place of its Markdown file. -/
def clashing : FileTree where
  entries :=
    [([utf8 "in"], .dir), ([utf8 "in", utf8 "a"], .dir), ([utf8 "in", utf8 "b"], .dir),
     ([utf8 "in", utf8 "a", utf8 "x.json"], .file (utf8 smallText)),
     ([utf8 "in", utf8 "b", utf8 "x.json"], .file (utf8 smallText)),
     ([utf8 "in", utf8 "y.json"], .file (utf8 smallText)),
     ([utf8 "out"], .dir), ([utf8 "out", utf8 "y-docs.md"], .dir)]
  cwd := []

def clashingArguments (format : Format) : Arguments where
  file := some (utf8 "in")
  format := some format
  output := some (utf8 "out")

def clashingOptions (format : Format) : Options where
  input := some (utf8 "in")
  format := format
  output := some (utf8 "out")
  name := defaultName

theorem clashing_linkFree : clashing.LinkFree := by decide

theorem clashing_effective (format : Format) :
    effective clashing (clashingArguments format) = .ok (clashingOptions format) := by
  cbv

theorem clashing_documents (format : Format) :
    ∃ document, documents clashing (clashingOptions format) =
      .ok [("x", document), ("x", document), ("y", document)] := by
  have hinputs : inputs clashing (utf8 "in") =
      .ok [utf8 "in/a/x.json", utf8 "in/b/x.json", utf8 "in/y.json"] := by cbv
  have hnames : documentName (utf8 "in/a/x.json") = "x" ∧ documentName (utf8 "in/b/x.json") = "x" ∧
      documentName (utf8 "in/y.json") = "y" := ⟨by cbv, by cbv, by cbv⟩
  have hsmall : ∀ file ∈ [utf8 "in/a/x.json", utf8 "in/b/x.json", utf8 "in/y.json"],
      ∃ loc, clashing.locate file = .ok loc ∧ clashing.get? loc = some (.file (utf8 smallText)) := by
    simp only [List.forall_mem_cons]
    exact ⟨⟨[utf8 "in", utf8 "a", utf8 "x.json"], by cbv, rfl⟩, ⟨[utf8 "in", utf8 "b", utf8 "x.json"], by cbv, rfl⟩,
      ⟨[utf8 "in", utf8 "y.json"], by cbv, rfl⟩, List.forall_mem_nil _⟩
  have hinput : (clashingOptions format).input = some (utf8 "in") := rfl
  obtain ⟨document, -, hfound⟩ := documents_of_smallText hinput hinputs (by simp) hsmall
  refine ⟨document, ?_⟩
  simpa only [List.map_cons, List.map_nil, hnames] using hfound

/-- The tree after some files were written to its output. -/
def clashingWith (files : List (String × Bytes)) : FileTree where
  entries := clashing.entries ++ files.map fun file => ([utf8 "out", utf8 file.1], .file file.2)
  cwd := []

theorem clashing_run_openapi : (run clashing (clashingArguments .openapi) none).result =
    .ok [utf8 "out/x-openapi.yaml", utf8 "out/x-openapi.yaml", utf8 "out/y-openapi.yaml"] := by
  obtain ⟨document, hfound⟩ := clashing_documents .openapi
  have hfirst : ∀ text, writeOutput clashing (utf8 "out") (outputName .openapi "x") text =
      (clashingWith [("x-openapi.yaml", utf8 text)], .ok (utf8 "out/x-openapi.yaml")) := by
    intro text
    cbv
  have hsecond : ∀ old text, writeOutput (clashingWith [("x-openapi.yaml", old)]) (utf8 "out")
      (outputName .openapi "x") text =
        (clashingWith [("x-openapi.yaml", utf8 text)], .ok (utf8 "out/x-openapi.yaml")) := by
    intro old text
    cbv
  have hthird : ∀ old text, writeOutput (clashingWith [("x-openapi.yaml", old)]) (utf8 "out")
      (outputName .openapi "y") text =
        (clashingWith [("x-openapi.yaml", old), ("y-openapi.yaml", utf8 text)], .ok (utf8 "out/y-openapi.yaml")) := by
    intro old text
    cbv
  rw [run_of_documents (clashing_effective .openapi) hfound rfl]
  simp only [clashingOptions]
  rw [writeAll_cons_ok ("x", document) (hfirst _), writeAll_cons_ok ("x", document) (hsecond _ _),
    writeAll_cons_ok ("y", document) (hthird _ _)]
  rfl

/-- Of two documents of one name the first is lost. -/
theorem run_kept_iff_clashing : clashing.Clear clashing.cwd ∧
    effective clashing (clashingArguments .openapi) = .ok (clashingOptions .openapi) ∧
    (run clashing (clashingArguments .openapi) none).result =
      .ok [utf8 "out/x-openapi.yaml", utf8 "out/x-openapi.yaml", utf8 "out/y-openapi.yaml"] ∧
    ∃ found, documents clashing (clashingOptions .openapi) = .ok found ∧
      ¬Kept .openapi (utf8 "out") found (run clashing (clashingArguments .openapi) none).tree := by
  refine ⟨clashing.clear_nil, clashing_effective _, clashing_run_openapi, ?_⟩
  obtain ⟨found, hfound, -, -, -, hkept⟩ :=
    run_kept_iff clashing.clear_nil (clashing_effective .openapi) rfl clashing_run_openapi
  refine ⟨found, hfound, fun h => ?_⟩
  obtain ⟨document, hdocuments⟩ := clashing_documents .openapi
  cases hfound.symm.trans hdocuments
  have hnames := (hkept clashing_linkFree).mp h
  simp at hnames

/-! ### Runs that fail -/

theorem level_written (path : Path) : (written path).level = .info := rfl

/-- The events about written files are the only ones at their level. -/
theorem filter_info_log {α : Type} (items : List α) (path : α → Path) :
    (preamble tree arguments options ++ items.map fun item => written (path item)).filter
      (fun event => event.level = .info) = items.map fun item => written (path item) := by
  rw [List.filter_append, List.filter_eq_nil_iff.mpr, List.nil_append, List.filter_eq_self]
  · intro event hevent
    obtain ⟨item, -, rfl⟩ := List.mem_map.mp hevent
    exact decide_eq_true (level_written (path item))
  · intro event hevent
    simp [preamble_debug event hevent]

theorem printOutput_error {text taken : Bytes} (h : printOutput limit text = (taken, .error failure)) :
    ∃ cause, failure = .output cause := by
  unfold printOutput at h
  split at h
  · cases h
  · split_ifs at h
    · cases h
    · cases h
      exact ⟨.outputFull, rfl⟩

theorem printAll_error {format : Format} (h : (printAll format limit tree found).result = .error failure) :
    ∃ cause, failure = .output cause := by
  induction found generalizing limit with
  | nil => cases h
  | cons document found ih =>
      rw [printAll] at h
      split at h
      · next taken cause hprint =>
          cases h
          exact printOutput_error hprint
      · exact ih h

/-- How a run fails: before it writes anything, at the standard output, or at a document that is refused after
those before it were written. -/
theorem run_error_cases (h : (run tree arguments limit).result = .error failure) (hcwd : tree.Clear tree.cwd) :
    (∃ stage e, failure = .at stage e ∧ stage ≠ .writing ∧ (run tree arguments limit).tree = tree ∧
      (run tree arguments limit).stdout = []) ∨
    (∃ cause, failure = .output cause) ∨
    (∃ e options dir before next after, failure = .at .writing e ∧ effective tree arguments = .ok options ∧
      options.output = some dir ∧ documents tree options = .ok (before ++ next :: after) ∧
      Refused options.format dir tree (run tree arguments limit).tree before next e ∧
      (run tree arguments limit).stdout = [] ∧
      (run tree arguments limit).log = preamble tree arguments options ++
        before.map fun document => written (outputPath options.format dir document.1)) := by
  cases heffective : effective tree arguments with
  | error e =>
      rw [run_of_effective_error heffective] at h ⊢
      cases h
      exact Or.inl ⟨.configuring, e, rfl, by decide, rfl, rfl⟩
  | ok options =>
      cases hfound : documents tree options with
      | error e =>
          rw [run_of_documents_error heffective hfound] at h ⊢
          cases h
          exact Or.inl ⟨.loading, e, rfl, by decide, rfl, rfl⟩
      | ok found =>
          cases hdir : options.output with
          | none =>
              rw [run_of_printing heffective hfound hdir] at h
              exact Or.inr (Or.inl (printAll_error h))
          | some dir =>
              rw [run_of_documents heffective hfound hdir] at h ⊢
              obtain ⟨left, hall, -⟩ | ⟨left, before, next, after, e, rfl, hall, hrefused⟩ :=
                writeAll_cases found hcwd
              · rw [hall] at h
                cases h
              · rw [hall] at h ⊢
                cases h
                exact Or.inr (Or.inr ⟨e, options, dir, before, next, after, rfl, rfl, hdir, hfound, hrefused, rfl, rfl⟩)

/-- Nothing stood where the file of a document should go, and a directory was made there on the way to the output.
This takes an output that is written with a step up, or a document whose name holds a slash. -/
structure Overlaid (dir : Path) (name : String) (tree left : FileTree) (loc : Location) : Prop where
  missing : tree.get? loc = none
  made : left.get? loc = some .dir
  around : ∃ path ∈ dir.ancestors, left.locate path = .ok loc
  roundabout : .parent ∈ dir.components ∨ '/' ∈ name.toList

/-- The target of a document that was refused stands as before, unless it is a directory that was made. -/
theorem Refused.target_kept {format : Format} {left : FileTree} {before : List (String × Document)}
    {next : String × Document} {loc : Location} (h : Refused format dir tree left before next e) (hfree : tree.LinkFree)
    (hloc : left.locate (outputPath format dir next.1) = .ok loc) :
    left.get? loc = tree.get? loc ∨ Overlaid dir next.1 tree left loc := by
  rcases h.wrote_left.frame loc with heq | ⟨hnone, hnew, path, hpath, hlocate⟩ | ⟨file, hfile, hsame⟩
  · exact Or.inl heq
  · refine Or.inr ⟨hnone, hnew, ⟨path, hpath, hlocate⟩, ?_⟩
    -- Else the target is an entry of the output, and no directory around the output is one.
    by_contra hstraight
    rw [not_or] at hstraight
    exact locate_join_ne_of_ancestor hpath hstraight.1 hlocate (plain_outputName hstraight.2)
      (fun loc => h.wrote_left.clear (hfree.clear loc)) hloc
  · obtain ⟨document, hdocument, rfl⟩ := List.mem_map.mp hfile
    exact absurd hsame (h.apart hloc hdocument)

/-- A run that fails while it reads has written nothing. One that fails at a document has made directories on the
way to its output and has written the documents before that one, in order, and nothing else: what stands at the
target of the document that failed stands there as before, unless it is one of the new directories. -/
theorem run_failed (hfree : tree.LinkFree)
    (hrun : (run tree arguments limit).result = .error failure) :
    (∀ stage e, failure = .at stage e → stage ≠ .writing →
      (run tree arguments limit).tree = tree ∧ (run tree arguments limit).stdout = []) ∧
    (∀ e, failure = .at .writing e →
      ∃ options dir before next after, effective tree arguments = .ok options ∧ options.output = some dir ∧
        documents tree options = .ok (before ++ next :: after) ∧
        writeOutput (writeAll options.format dir tree before).tree dir (outputName options.format next.1)
          (render options.format next.1 next.2) = ((run tree arguments limit).tree, .error e) ∧
        Wrote dir (before.map (outputFile options.format dir)) tree (run tree arguments limit).tree ∧
        (∀ loc, (run tree arguments limit).tree.locate (outputPath options.format dir next.1) = .ok loc →
          (run tree arguments limit).tree.get? loc = tree.get? loc ∨
            Overlaid dir next.1 tree (run tree arguments limit).tree loc) ∧
        (run tree arguments limit).stdout = [] ∧
        (run tree arguments limit).log.filter (fun event => event.level = .info) =
          (before.map fun document => written (outputPath options.format dir document.1))) := by
  obtain ⟨stage, e, rfl, hstage, htree, hstdout⟩ | ⟨cause, rfl⟩ |
    ⟨e, options, dir, before, next, after, rfl, heffective, hdir, hfound, hrefused, hstdout, hlog⟩ :=
    run_error_cases hrun (hfree.clear _)
  · refine ⟨fun _ _ _ _ => ⟨htree, hstdout⟩, ?_⟩
    intro other heq
    cases heq
    exact absurd rfl hstage
  · constructor
    · intro stage e heq
      cases heq
    · intro e heq
      cases heq
  · constructor
    · intro stage other heq hstage
      cases heq
      exact absurd rfl hstage
    · intro other heq
      cases heq
      exact ⟨options, dir, before, next, after, heffective, hdir, hfound, hrefused.error, hrefused.wrote_left,
        fun _ => hrefused.target_kept hfree, hstdout, by rw [hlog, filter_info_log]⟩

theorem clashing_run_markdown : (run clashing (clashingArguments .markdown) none).result =
    .error (.at .writing (.io (utf8 "out/y-docs.md") (.os .isDirectory))) := by
  obtain ⟨document, hfound⟩ := clashing_documents .markdown
  have hfirst : ∀ text, writeOutput clashing (utf8 "out") (outputName .markdown "x") text =
      (clashingWith [("x-docs.md", utf8 text)], .ok (utf8 "out/x-docs.md")) := by
    intro text
    cbv
  have hsecond : ∀ old text, writeOutput (clashingWith [("x-docs.md", old)]) (utf8 "out")
      (outputName .markdown "x") text = (clashingWith [("x-docs.md", utf8 text)], .ok (utf8 "out/x-docs.md")) := by
    intro old text
    cbv
  have hthird : ∀ old text, writeOutput (clashingWith [("x-docs.md", old)]) (utf8 "out")
      (outputName .markdown "y") text =
        (clashingWith [("x-docs.md", old)], .error (.io (utf8 "out/y-docs.md") (.os .isDirectory))) := by
    intro old text
    cbv
  rw [run_of_documents (clashing_effective .markdown) hfound rfl]
  simp only [clashingOptions]
  rw [writeAll_cons_ok ("x", document) (hfirst _), writeAll_cons_ok ("x", document) (hsecond _ _), writeAll, hthird]
  rfl

/-- A document that is refused after two others were written to one file. -/
theorem run_failed_clashing : clashing.LinkFree ∧
    (run clashing (clashingArguments .markdown) none).result =
      .error (.at .writing (.io (utf8 "out/y-docs.md") (.os .isDirectory))) ∧
    ∃ options dir before next after, documents clashing options = .ok (before ++ next :: after) ∧
      Wrote dir (before.map (outputFile options.format dir)) clashing
        (run clashing (clashingArguments .markdown) none).tree ∧
      (run clashing (clashingArguments .markdown) none).stdout = [] := by
  refine ⟨clashing_linkFree, clashing_run_markdown, ?_⟩
  obtain ⟨options, dir, before, next, after, -, -, hfound, -, hwrote, -, hstdout, -⟩ :=
    (run_failed clashing_linkFree clashing_run_markdown).2 _ rfl
  exact ⟨options, dir, before, next, after, hfound, hwrote, hstdout⟩

/-- Arguments whose output is written by way of the place of its own file. -/
def roundaboutArguments : Arguments where
  output := some (utf8 "out/x-docs.md/..")
  name := some "x"

def roundaboutOptions : Options where
  input := none
  format := .markdown
  output := some (utf8 "out/x-docs.md/..")
  name := "x"

/-- The directories on the way to that output. -/
def roundaboutLeft : FileTree where
  entries := [([[119]], .dir), ([[119], utf8 "out"], .dir), ([[119], utf8 "out", utf8 "x-docs.md"], .dir)]
  cwd := [[119]]

/-- Nothing stands at the target of the document that is refused, and a directory is made there. -/
theorem run_overlays : FileTree.fresh.LinkFree ∧
    effective FileTree.fresh roundaboutArguments = .ok roundaboutOptions ∧
    documents FileTree.fresh roundaboutOptions = .ok [("x", Service.document)] ∧
    (run FileTree.fresh roundaboutArguments none).result =
      .error (.at .writing (.io (utf8 "out/x-docs.md/../x-docs.md") (.os .isDirectory))) ∧
    ∃ loc, (run FileTree.fresh roundaboutArguments none).tree.locate
        (outputPath .markdown (utf8 "out/x-docs.md/..") "x") = .ok loc ∧
      FileTree.fresh.get? loc = none ∧
      (run FileTree.fresh roundaboutArguments none).tree.get? loc = some .dir := by
  have heffective : effective FileTree.fresh roundaboutArguments = .ok roundaboutOptions := by cbv
  have hwrite : ∀ text, writeOutput FileTree.fresh (utf8 "out/x-docs.md/..") (outputName .markdown "x") text =
      (roundaboutLeft, .error (.io (utf8 "out/x-docs.md/../x-docs.md") (.os .isDirectory))) := by
    intro text
    cbv
  have hrun : (run FileTree.fresh roundaboutArguments none).result =
        .error (.at .writing (.io (utf8 "out/x-docs.md/../x-docs.md") (.os .isDirectory))) ∧
      (run FileTree.fresh roundaboutArguments none).tree = roundaboutLeft := by
    rw [run_of_documents heffective rfl rfl]
    simp only [roundaboutOptions, writeAll, hwrite, and_self]
  refine ⟨by decide, heffective, rfl, hrun.1, [[119], utf8 "out", utf8 "x-docs.md"], ?_, by decide, ?_⟩
  · rw [hrun.2]
    cbv
  · rw [hrun.2]
    cbv

end RouteBook.Generator
