import RouteBook.Proofs.Generator.Exactness
import RouteBook.Proofs.Text.Ascii

/-! How the documents of a run are loaded. A walk never fails, so it is the files it found that decide: none of them,
all of them good, or a first bad one, whose error is the outcome whatever stands in the files behind it. -/

namespace RouteBook.Generator

open OpenApi (Document)
open FileTree

variable {tree : FileTree} {options : Options} {input file : Path} {named : String × Document} {e : Error}

/-! ### One file -/

theorem readText_of_not_text {path : Path} {content : Bytes} (hread : tree.readFile path = .ok content)
    (h : ∀ text, content ≠ utf8 text) : tree.readText path = .error .notText := by
  have hnone : utf8? content = none :=
    Option.eq_none_iff_forall_ne_some.mpr fun text heq => h text (utf8?_eq_some_iff.mp heq)
  rw [readText, hread]
  simp only [bind, Except.bind, hnone]

/-- A file holds the text of a document, which goes by the stem of the file's name. -/
def Loads (tree : FileTree) (file : Path) (named : String × Document) : Prop :=
  ∃ stem text, file.stem? = some stem ∧ named.1 = lossy stem ∧ tree.readFile file = .ok (utf8 text) ∧
    Document.parse text = .ok named.2

/-- Why no document can be loaded from a file. -/
inductive Fails (tree : FileTree) (file : Path) : Error → Prop
  | unread {cause : IoError} (h : tree.readFile file = .error cause) : Fails tree file (.io file cause)
  | notText {content : Bytes} (h : tree.readFile file = .ok content) (htext : ∀ text, content ≠ utf8 text) :
    Fails tree file (.io file .notText)
  | invalid {text : String} {fault : Json.Fault} (h : tree.readFile file = .ok (utf8 text))
    (hparse : Document.parse text = .error fault) : Fails tree file (.input file ⟨text, fault⟩)

theorem loadDocument_of_loads (h : Loads tree file named) : loadDocument tree file = .ok named := by
  obtain ⟨stem, text, hstem, hname, hread, hparse⟩ := h
  have hnamed : documentName file = named.1 := by rw [documentName, hstem, hname, Option.map_some, Option.getD_some]
  rw [loadDocument_of_readText (readText_of_readFile hread) hparse, hnamed]

theorem loadDocument_of_fails (h : Fails tree file e) : loadDocument tree file = .error e := by
  cases h with
  | @unread cause h =>
      have hread : tree.readText file = .error cause := by
        rw [readText, h]
        rfl
      rw [loadDocument, hread]
  | @notText content h htext =>
      rw [loadDocument, readText_of_not_text h htext]
  | @invalid text fault h hparse =>
      rw [loadDocument, readText_of_readFile h]
      simp only [hparse]

theorem exists_stem (h : file.extension? = some inputExtension) : ∃ stem, file.stem? = some stem := by
  obtain ⟨name, hname, -⟩ := Option.bind_eq_some_iff.mp h
  exact ⟨_, by rw [Path.stem?, hname, Option.map_some]⟩

/-- A file with a stem can be loaded or there is a reason why not. -/
theorem loads_or_fails (tree : FileTree) {stem : Name} (hstem : file.stem? = some stem) :
    (∃ named, Loads tree file named) ∨ ∃ e, Fails tree file e := by
  cases hread : tree.readFile file with
  | error cause => exact Or.inr ⟨_, .unread hread⟩
  | ok content =>
      by_cases htext : ∃ text, content = utf8 text
      · obtain ⟨text, rfl⟩ := htext
        cases hparse : Document.parse text with
        | error fault => exact Or.inr ⟨_, .invalid hread hparse⟩
        | ok document => exact Or.inl ⟨(lossy stem, document), stem, text, hstem, rfl, hread, hparse⟩
      · exact Or.inr ⟨_, .notText hread fun text heq => htext ⟨text, heq⟩⟩

theorem loadDocument_eq_ok_iff (h : file.extension? = some inputExtension) :
    loadDocument tree file = .ok named ↔ Loads tree file named := by
  refine ⟨fun hload => ?_, loadDocument_of_loads⟩
  obtain ⟨stem, hstem⟩ := exists_stem h
  rcases loads_or_fails tree hstem with ⟨other, hother⟩ | ⟨e, hfails⟩
  · cases hload.symm.trans (loadDocument_of_loads hother)
    exact hother
  · cases hload.symm.trans (loadDocument_of_fails hfails)

theorem loadDocument_eq_error_iff (h : file.extension? = some inputExtension) :
    loadDocument tree file = .error e ↔ Fails tree file e := by
  refine ⟨fun hload => ?_, loadDocument_of_fails⟩
  obtain ⟨stem, hstem⟩ := exists_stem h
  rcases loads_or_fails tree hstem with ⟨named, hloads⟩ | ⟨other, hother⟩
  · cases hload.symm.trans (loadDocument_of_loads hloads)
  · cases hload.symm.trans (loadDocument_of_fails hother)
    exact hother

/-! ### All files -/

/-- The first file that fails decides how loading fails. -/
theorem mapM_loadDocument_eq_error_iff {files : List Path} (h : ∀ file ∈ files, file.extension? = some inputExtension) :
    files.mapM (loadDocument tree) = .error e ↔ ∃ before file after, files = before ++ file :: after ∧
      (∀ earlier ∈ before, ∃ named, Loads tree earlier named) ∧ Fails tree file e := by
  constructor
  · intro herror
    obtain ⟨before, file, after, rfl, hbefore, hfile⟩ := exists_first_of_mapM_error herror
    refine ⟨before, file, after, rfl, fun earlier hearlier => ?_, ?_⟩
    · obtain ⟨named, hload⟩ := hbefore earlier hearlier
      exact ⟨named, (loadDocument_eq_ok_iff (h earlier (List.mem_append_left _ hearlier))).mp hload⟩
    · exact (loadDocument_eq_error_iff (h file (by simp))).mp hfile
  · rintro ⟨before, file, after, rfl, hbefore, hfile⟩
    refine mapM_error_of_first (fun earlier hearlier => ?_) (loadDocument_of_fails hfile) after
    obtain ⟨named, hloads⟩ := hbefore earlier hearlier
    exact ⟨named, loadDocument_of_loads hloads⟩

theorem mapM_loadDocument_eq_ok_iff {files : List Path} {loaded : List (String × Document)}
    (h : ∀ file ∈ files, file.extension? = some inputExtension) :
    files.mapM (loadDocument tree) = .ok loaded ↔ List.Forall₂ (Loads tree) files loaded := by
  rw [mapM_eq_ok_iff]
  constructor
  · intro hall
    refine ((List.forall₂_and_left files loaded).mpr ⟨h, hall⟩).imp fun file named hfile => ?_
    exact (loadDocument_eq_ok_iff hfile.1).mp hfile.2
  · intro hall
    exact hall.imp fun file named => loadDocument_of_loads

/-- All files load exactly if there is none that fails. -/
theorem exists_loaded_iff {files : List Path} (h : ∀ file ∈ files, file.extension? = some inputExtension) :
    (∃ loaded, files.mapM (loadDocument tree) = .ok loaded) ↔ ∀ file ∈ files, ∃ named, Loads tree file named := by
  constructor
  · rintro ⟨loaded, hloaded⟩ file hfile
    obtain ⟨named, hload⟩ := exists_ok_of_mem_mapM hloaded hfile
    exact ⟨named, (loadDocument_eq_ok_iff (h file hfile)).mp hload⟩
  · intro hall
    cases hresult : files.mapM (loadDocument tree) with
    | ok loaded => exact ⟨loaded, rfl⟩
    | error e =>
        obtain ⟨before, file, after, rfl, -, hfails⟩ := (mapM_loadDocument_eq_error_iff h).mp hresult
        obtain ⟨named, hloads⟩ := hall file (by simp)
        cases (loadDocument_of_loads hloads).symm.trans (loadDocument_of_fails hfails)

theorem mapM_loadDocument_congr {other : FileTree} {before later : List Path}
    (hbefore : ∀ earlier ∈ before, ∃ named, Loads tree earlier named) (hfile : Fails tree file e)
    (hsame : ∀ path ∈ before ++ [file], other.readFile path = tree.readFile path) :
    (before ++ file :: later).mapM (loadDocument other) = .error e := by
  refine mapM_error_of_first (fun earlier hearlier => ?_) ?_ later
  · obtain ⟨named, hloads⟩ := hbefore earlier hearlier
    refine ⟨named, ?_⟩
    rw [loadDocument_congr (hsame earlier (List.mem_append_left _ hearlier)), loadDocument_of_loads hloads]
  · rw [loadDocument_congr (hsame file (by simp)), loadDocument_of_fails hfile]

/-- The files that a walk finds decide how the loading of documents ends. It ends for want of input exactly if there are
none. Otherwise it succeeds exactly if every file holds the text of a document, and gives these documents in the order of
the walk, each with the stem of its file; and if it fails, the error is that of the first file that cannot be loaded, and
it is the same in any other tree with the same files up to that one. Where nothing stands at the input path, that path
is itself the file if it is named like one. -/
theorem documents_outcome (hinput : options.input = some input) :
    ∃ found, inputs tree input = .ok found ∧ (tree.Proper → found.Pairwise Path.Precedes) ∧
      (∀ path, documents tree options = .error (.noInput path) ↔ found = [] ∧ path = input) ∧
      (found ≠ [] →
        ((∃ loaded, documents tree options = .ok loaded) ↔ ∀ file ∈ found, ∃ named, Loads tree file named) ∧
        (∀ loaded, documents tree options = .ok loaded ↔ List.Forall₂ (Loads tree) found loaded) ∧
        ∀ e, documents tree options = .error e ↔ ∃ before file after, found = before ++ file :: after ∧
          (∀ earlier ∈ before, ∃ named, Loads tree earlier named) ∧ Fails tree file e) ∧
      (∀ before file after e, found = before ++ file :: after → (∀ earlier ∈ before, ∃ named, Loads tree earlier named) →
        Fails tree file e → ∀ other later, inputs other input = .ok (before ++ file :: later) →
          (∀ path ∈ before ++ [file], other.readFile path = tree.readFile path) → documents other options = .error e) ∧
      ∀ cause, tree.locate input = .error cause → documents tree options =
        .error (if input.extension? = some inputExtension then .io input cause else .noInput input) := by
  have hwalk : inputs tree input = .ok (filesWithin tree pathLimit input) := inputsWithin_eq tree pathLimit input
  have hextension : ∀ file ∈ filesWithin tree pathLimit input, file.extension? = some inputExtension :=
    fun file hfile => extension?_of_mem_filesWithin hfile
  have hdocuments : documents tree options = _ := documents_of_input hinput
  refine ⟨_, hwalk, fun hproper => pairwise_filesWithin hproper pathLimit input, ?_, ?_, ?_, ?_⟩
  · intro path
    rw [hdocuments]
    split_ifs with hempty
    · simp [hempty, eq_comm]
    · simp only [hempty, false_and, iff_false]
      intro herror
      obtain ⟨before, file, after, -, -, hfails⟩ := (mapM_loadDocument_eq_error_iff hextension).mp herror
      cases hfails
  · intro hfound
    rw [hdocuments, if_neg hfound]
    exact ⟨exists_loaded_iff hextension, fun loaded => mapM_loadDocument_eq_ok_iff hextension,
      fun e => mapM_loadDocument_eq_error_iff hextension⟩
  · intro before file after e _ hbefore hfile other later hother hsame
    rw [inputs, inputsWithin_eq] at hother
    rw [documents_of_input hinput, Except.ok.inj hother, if_neg (by simp), mapM_loadDocument_congr hbefore hfile hsame]
  · intro cause hmissing
    have hdir : tree.isDir input = false := by rw [isDir, hmissing]
    have hread : tree.readFile input = .error cause := by
      rw [readFile, hmissing]
      rfl
    rw [hdocuments, filesWithin_of_not_dir hdir, inputFile]
    by_cases hname : input.extension? = some inputExtension
    · rw [if_pos hname, if_pos hname, if_neg (by simp), List.mapM_cons, loadDocument_of_fails (.unread hread)]
      rfl
    · rw [if_neg hname, if_neg hname, if_pos rfl]

/-- A good file, one that is no document, and one that is no text. -/
def faulty : FileTree where
  entries :=
    [([utf8 "in"], .dir), ([utf8 "in", utf8 "c.json"], .file [255]), ([utf8 "in", utf8 "b"], .dir),
     ([utf8 "in", utf8 "b", utf8 "x.json"], .file (utf8 "[]")), ([utf8 "in", utf8 "a.json"], .file (utf8 smallText))]
  cwd := []

def faultyOptions : Options where
  input := some (utf8 "in")
  format := .markdown
  output := none
  name := defaultName

/-- The file that is no document comes before the one that is no text, so it decides. -/
theorem documents_outcome_faulty : faultyOptions.input = some (utf8 "in") ∧
    inputs faulty (utf8 "in") = .ok [utf8 "in/a.json", utf8 "in/b/x.json", utf8 "in/c.json"] ∧
    ∃ fault, Document.parse "[]" = .error fault ∧
      documents faulty faultyOptions = .error (.input (utf8 "in/b/x.json") ⟨"[]", fault⟩) := by
  have hinputs : inputs faulty (utf8 "in") = .ok [utf8 "in/a.json", utf8 "in/b/x.json", utf8 "in/c.json"] := by cbv
  have hfault : ∃ fault, Document.parse "[]" = .error fault := by
    have hfails : (Document.parse "[]").toOption.isNone = true := by cbv
    cases hparse : Document.parse "[]" with
    | error fault => exact ⟨fault, rfl⟩
    | ok document => rw [hparse] at hfails; cases hfails
  obtain ⟨fault, hparse⟩ := hfault
  obtain ⟨document, hsmall, -⟩ := smallText_document
  obtain ⟨found, hfound, -, -, houtcome, -⟩ := @documents_outcome faulty faultyOptions (utf8 "in") rfl
  cases hfound.symm.trans hinputs
  obtain ⟨-, -, hfails⟩ := houtcome (by simp)
  refine ⟨rfl, hinputs, fault, hparse, ?_⟩
  have hfirst : Loads faulty (utf8 "in/a.json") ("a", document) :=
    ⟨utf8 "a", smallText, by cbv, by cbv, by cbv, hsmall⟩
  have hsecond : Fails faulty (utf8 "in/b/x.json") (.input (utf8 "in/b/x.json") ⟨"[]", fault⟩) :=
    .invalid (by cbv) hparse
  refine (hfails _).mpr ⟨[utf8 "in/a.json"], utf8 "in/b/x.json", [utf8 "in/c.json"], rfl, ?_, hsecond⟩
  rw [List.forall_mem_singleton]
  exact ⟨_, hfirst⟩

end RouteBook.Generator
