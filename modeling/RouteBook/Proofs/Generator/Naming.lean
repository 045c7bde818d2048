import RouteBook.Proofs.Generator.Loading
import RouteBook.Proofs.Text.Decoding

/-! How documents are named after the files that they are read from. The name of an input file is a stem and the ending
of input files, and the stem names the document, however many dots it has and wherever they stand. No stem is missing,
and none holds a slash, so whatever a run writes it writes directly into its output directory. -/

namespace RouteBook

namespace Generator

open OpenApi (Document)
open FileTree

variable {tree left : FileTree} {input path file dir : Path} {depth : Nat} {format : Format}
  {found : List (String × Document)} {files : List Path}

/-! ### Names of documents -/

/-- The name of an input file is a stem and the ending. -/
theorem fileName?_of_extension? (h : file.extension? = some inputExtension) :
    ∃ stem, stem ≠ [] ∧ file.fileName? = some (stem ++ utf8 ".json") ∧ file.stem? = some stem := by
  have hdot : Path.dot ∉ inputExtension := by decide
  have hending : Path.dot :: inputExtension = utf8 ".json" := rfl
  obtain ⟨name, hname, hcut⟩ := Option.bind_eq_some_iff.mp h
  obtain ⟨stem, hstem, rfl⟩ := (Path.cutName_eq_some_iff hdot).mp hcut
  rw [hending] at hname
  refine ⟨stem, hstem, hname, ?_⟩
  rw [Path.stem?, hname, Option.map_some, ← hending, Path.cutName_append hstem hdot]

theorem documentName_of_stem? {stem : Name} (h : file.stem? = some stem) : documentName file = lossy stem := by
  rw [documentName, h, Option.map_some, Option.getD_some]

theorem lossy_ne_empty {bytes : Bytes} (h : bytes ≠ []) : lossy bytes ≠ "" := by
  obtain ⟨b, rest, rfl⟩ := List.exists_cons_of_ne_nil h
  intro heq
  have hchars := congrArg String.toList heq
  rw [lossy, String.toList_ofList, Bytes.lossyChars] at hchars
  cases hchars

/-- A document is named by the stem of its file, and not for want of one; its name is not empty and holds no slash. -/
structure Named (file : Path) : Prop where
  stem : ∃ stem, stem ≠ [] ∧ file.stem? = some stem ∧ documentName file = lossy stem
  nonempty : documentName file ≠ ""
  noSlash : '/' ∉ (documentName file).toList

theorem named_of_extension? (h : file.extension? = some inputExtension) : Named file := by
  obtain ⟨stem, hne, -, hstem⟩ := fileName?_of_extension? h
  have hname := documentName_of_stem? hstem
  exact ⟨⟨stem, hne, hstem, hname⟩, by rw [hname]; exact lossy_ne_empty hne, not_mem_documentName file⟩

/-- Where the name of an input file is a text, it is the name of the document and the ending. -/
theorem fileName?_of_isUtf8 {name : Name} (h : file.extension? = some inputExtension) (hfile : file.fileName? = some name)
    (hname : IsUtf8 name) : file.fileName? = some (utf8 (documentName file ++ ".json")) := by
  obtain ⟨stem, -, hstem, hcut⟩ := fileName?_of_extension? h
  obtain rfl : name = stem ++ utf8 ".json" := Option.some.inj (hfile.symm.trans hstem)
  have hascii : ∀ b ∈ utf8 ".json", b.toNat < 0x80 := by decide +kernel
  obtain ⟨text, rfl⟩ := isUtf8_of_append hascii hname
  rw [hstem, documentName_of_stem? hcut, lossy_utf8, utf8_append]

/-! ### Names that a walk meets -/

/-- All names are texts: those of the entries, and the one that the input path ends in. -/
structure TextNames (tree : FileTree) (input : Path) : Prop where
  entry : ∀ loc name entry, tree.get? (loc ++ [name]) = some entry → IsUtf8 name
  input : ∀ name, input.fileName? = some name → IsUtf8 name

/-- A file that a walk finds below its path has the name of an entry. -/
theorem fileName?_of_mem_filesWithin (hproper : tree.Proper) (h : file ∈ filesWithin tree depth path) :
    file = path ∨ ∃ loc name entry, tree.get? (loc ++ [name]) = some entry ∧ file.fileName? = some name := by
  refine filesWithin_induction (motive := fun path => file = path ∨ ∃ loc name entry,
    tree.get? (loc ++ [name]) = some entry ∧ file.fileName? = some name) h (fun _ => Or.inl rfl) ?_
  rintro path loc name entry hentry (rfl | hbelow)
  · exact Or.inr ⟨loc, name, entry, hentry, Path.fileName?_join (hproper.stands_of_get? hentry).2.plain⟩
  · exact Or.inr hbelow

theorem TextNames.of_mem (h : TextNames tree input) (hproper : tree.Proper) (hfile : file ∈ filesWithin tree depth input) :
    ∀ name, file.fileName? = some name → IsUtf8 name := by
  intro name hname
  rcases fileName?_of_mem_filesWithin hproper hfile with rfl | ⟨loc, other, entry, hentry, hother⟩
  · exact h.input name hname
  · cases hname.symm.trans hother
    exact h.entry loc name entry hentry

/-! ### Files that are written -/

variable {arguments : Arguments} {limit : Option Nat} {options : Options}

/-- The documents that are read from files are named by the files. -/
theorem names_of_inputs (hinput : options.input = some input) (hfiles : inputs tree input = .ok files)
    (h : documents tree options = .ok found) : found.map Prod.fst = files.map documentName := by
  simp only [documents, hinput, hfiles, ok_bind] at h
  split_ifs at h with hempty
  have hall := mapM_eq_ok_iff.mp h
  clear h hfiles hempty
  induction hall with
  | nil => rfl
  | cons hload _ ih => rw [List.map_cons, List.map_cons, name_of_loadDocument hload, ih]

theorem path_of_writeOutput {name text : String} (h : writeOutput tree dir name text = (left, .ok path)) :
    path = dir.join (utf8 name) := by
  unfold writeOutput at h
  split at h
  · cases h
  · dsimp only at h
    split at h
    · cases h
    · cases h
      rfl

/-- Documents are written in their order, up to some point; a result that is good comes from the end. -/
theorem writeAll_names (format : Format) (dir : Path) (tree : FileTree) (found : List (String × Document)) :
    ∃ names, names <+: found.map Prod.fst ∧
      (writeAll format dir tree found).log = names.map (fun name => written (outputPath format dir name)) ∧
      ∀ paths, (writeAll format dir tree found).result = .ok paths →
        paths = (found.map Prod.fst).map (outputPath format dir) := by
  induction found generalizing tree with
  | nil => exact ⟨[], List.prefix_rfl, rfl, fun paths h => (Except.ok.inj h).symm⟩
  | cons first rest ih =>
      rcases hwrite : writeOutput tree dir (outputName format first.1) (render format first.1 first.2) with
        ⟨left, e | path⟩
      · rw [writeAll, hwrite]
        exact ⟨[], List.nil_prefix, rfl, fun paths hpaths => by cases hpaths⟩
      · obtain rfl : path = outputPath format dir first.1 := path_of_writeOutput hwrite
        obtain ⟨names, hnames, hlog, hresult⟩ := ih left
        rw [writeAll_cons_ok first hwrite]
        refine ⟨first.1 :: names, List.cons_prefix_cons.mpr ⟨rfl, hnames⟩, by rw [List.map_cons, hlog], ?_⟩
        intro paths hpaths
        obtain ⟨more, hmore, rfl⟩ := map_eq_ok_iff.mp hpaths
        rw [hresult more hmore]
        rfl

/-- A location that a run of writes has changed is a new directory on the way to the directory that is written into, or
the place of one of the files, directly in that directory. -/
def Confined (format : Format) (dir : Path) (names : List String) (tree left : FileTree) : Prop :=
  ∀ loc, left.get? loc = tree.get? loc ∨
    (tree.get? loc = none ∧ left.get? loc = some .dir ∧ ∃ way ∈ dir.ancestors, left.locate way = .ok loc) ∨
    ∃ name ∈ names, ∃ place, left.locate dir = .ok place ∧ left.get? place = some .dir ∧
      loc = place ++ [utf8 (outputName format name)]

theorem Wrote.confined (h : Wrote dir (found.map (outputFile format dir)) tree left) (hfree : tree.LinkFree)
    (hdir : dir ≠ []) (hnames : ∀ document ∈ found, '/' ∉ document.1.toList) :
    Confined format dir (found.map Prod.fst) tree left := by
  intro loc
  rcases h.frame loc with hsame | hmade | ⟨item, hitem, hloc⟩
  · exact Or.inl hsame
  · exact Or.inr (Or.inl hmade)
  · obtain ⟨document, hdocument, rfl⟩ := List.mem_map.mp hitem
    have hplain : Path.Plain (utf8 (outputName format document.1)) := plain_outputName (hnames document hdocument)
    obtain ⟨slash, hreach, -⟩ := locate_eq_ok_iff.mp hloc
    obtain ⟨links, place, hplace, hget, hleads⟩ := hreach.exists_dir hdir hplain
    have hentry := hleads.eq_of_plain hplain fun loc => h.clear (hfree.clear loc)
    exact Or.inr (Or.inr ⟨document.1, List.mem_map_of_mem hdocument, place, hplace, hget, hentry.1⟩)

theorem Confined.mono {names more : List String} (h : Confined format dir names tree left) (hmore : names ⊆ more) :
    Confined format dir more tree left := by
  intro loc
  refine (h loc).imp_right (Or.imp_right ?_)
  rintro ⟨name, hname, hplace⟩
  exact ⟨name, hmore hname, hplace⟩

theorem writeAll_confined (hfree : tree.LinkFree) (hdir : dir ≠ [])
    (hnames : ∀ document ∈ found, '/' ∉ document.1.toList) :
    Confined format dir (found.map Prod.fst) tree (writeAll format dir tree found).tree := by
  obtain ⟨left, hall, hwrote⟩ | ⟨left, before, next, after, e, rfl, hall, hrefused⟩ :=
    @writeAll_cases format dir tree found (hfree.clear tree.cwd)
  · rw [hall]
    exact hwrote.confined hfree hdir hnames
  · rw [hall]
    have hbefore := hrefused.wrote_left.confined hfree hdir fun document hdocument =>
      hnames document (List.mem_append_left _ hdocument)
    exact hbefore.mono (List.map_subset _ (List.subset_append_left _ _))

/-- What a run over files writes into a directory. The path for a file leads to an entry directly in the directory, by
the name of the document. Such paths, in order and up to where the run ends, are what it reports; and without links
nothing else changes, but for directories on the way. -/
structure WritesInto (format : Format) (dir : Path) (files : List Path) (tree : FileTree) (report : Report) : Prop where
  children : ∀ file ∈ files, Path.Plain (utf8 (outputName format (documentName file))) ∧
    (outputPath format dir (documentName file)).components =
      dir.components ++ [.normal (utf8 (outputName format (documentName file)))]
  reported : ∃ names, names <+: files.map documentName ∧ (report.log.filter fun event => event.level = .info) =
    names.map fun name => written (outputPath format dir name)
  result : ∀ paths, report.result = .ok paths → paths = files.map fun file => outputPath format dir (documentName file)
  confined : tree.LinkFree → dir ≠ [] → Confined format dir (files.map documentName) tree report.tree

theorem run_writesInto (hoptions : effective tree arguments = .ok options) (hinput : options.input = some input)
    (hdir : options.output = some dir) (hfiles : inputs tree input = .ok files) :
    WritesInto options.format dir files tree (run tree arguments limit) := by
  have hchildren : ∀ file ∈ files, Path.Plain (utf8 (outputName options.format (documentName file))) ∧
      (outputPath options.format dir (documentName file)).components =
        dir.components ++ [.normal (utf8 (outputName options.format (documentName file)))] := by
    intro file _
    have hplain : Path.Plain (utf8 (outputName options.format (documentName file))) :=
      plain_outputName (not_mem_documentName file)
    exact ⟨hplain, Path.components_join hplain⟩
  cases hfound : documents tree options with
  | error e =>
      rw [run_of_documents_error hoptions hfound]
      refine ⟨hchildren, ⟨[], List.nil_prefix, ?_⟩, fun paths hpaths => ?_, fun _ _ loc => Or.inl rfl⟩
      · simpa using filter_info_log ([] : List String) (outputPath options.format dir)
      · cases hpaths
  | ok found =>
      have hnames := names_of_inputs hinput hfiles hfound
      obtain ⟨names, hprefix, hlog, hresult⟩ := writeAll_names options.format dir tree found
      rw [run_of_documents hoptions hfound hdir]
      refine ⟨hchildren, ⟨names, hnames ▸ hprefix, ?_⟩, fun paths hpaths => ?_, fun hfree hne => ?_⟩
      · rw [hlog]
        exact filter_info_log names (outputPath options.format dir)
      · rw [hresult paths hpaths, hnames, List.map_map]
        rfl
      · rw [← hnames]
        exact writeAll_confined hfree hne (noSlash_of_documents hinput hfound)

/-- The files that a walk finds name the documents: the name of each of them, where names are texts, is the name of its
document and the ending. A document is never named for want of a stem, and its name is not empty and holds no slash, so
a run over these files writes them directly into its output directory. -/
theorem inputs_named (tree : FileTree) (input : Path) :
    ∃ files, inputs tree input = .ok files ∧ (∀ file ∈ files, Named file) ∧
      (tree.Proper → TextNames tree input → ∀ file ∈ files,
        file.components.getLast? = some (.normal (utf8 (documentName file ++ ".json")))) ∧
      ∀ arguments limit options dir, effective tree arguments = .ok options → options.input = some input →
        options.output = some dir → WritesInto options.format dir files tree (run tree arguments limit) := by
  have hfiles : inputs tree input = .ok (filesWithin tree pathLimit input) := inputsWithin_eq tree pathLimit input
  refine ⟨_, hfiles, ?_, ?_, ?_⟩
  · intro file hfile
    exact named_of_extension? (extension?_of_mem_filesWithin hfile)
  · intro hproper htexts file hfile
    have hextension := extension?_of_mem_filesWithin hfile
    obtain ⟨stem, -, hname, -⟩ := fileName?_of_extension? hextension
    exact Path.fileName?_eq_some_iff.mp (fileName?_of_isUtf8 hextension hname (htexts.of_mem hproper hfile _ hname))
  · intro arguments limit options dir hoptions hinput hdir
    exact run_writesInto hoptions hinput hdir hfiles

/-- Input files whose stems are a dot and start with dots, and a file that has no extension. -/
def dotted : FileTree where
  entries :=
    [([utf8 "in"], .dir), ([utf8 "in", utf8 "..x.json"], .file (utf8 smallText)), ([utf8 "in", utf8 ".json"], .file []),
     ([utf8 "in", utf8 "..json"], .file (utf8 smallText))]
  cwd := []

def dottedArguments : Arguments where
  file := some (utf8 "in")
  format := some .markdown
  output := some (utf8 "out")

def dottedOptions : Options where
  input := some (utf8 "in")
  format := .markdown
  output := some (utf8 "out")
  name := defaultName

/-- The tree after some files were written to its output, which is new. -/
def dottedWith (files : List (String × Bytes)) : FileTree where
  entries := dotted.entries ++ ([utf8 "out"], .dir) :: files.map fun file => ([utf8 "out", utf8 file.1], .file file.2)
  cwd := []

theorem dotted_proper : dotted.Proper := by decide

theorem dotted_textNames : TextNames dotted (utf8 "in") := by
  constructor
  · intro loc name entry hentry
    have hkey : loc ++ [name] ∈ dotted.entries.map Prod.fst := (mem_keys_iff (by simp)).mpr ⟨entry, hentry⟩
    have hlast : ∀ key ∈ dotted.entries.map Prod.fst, ∀ name, key.getLast? = some name → IsUtf8 name := by
      intro key hkey name hname
      fin_cases hkey <;> exact ⟨_, (Option.some.inj hname).symm⟩
    exact hlast _ hkey name List.getLast?_concat
  · intro name hname
    have hself : Path.fileName? (utf8 "in") = some (utf8 "in") := by decide
    exact ⟨"in", Option.some.inj (hname.symm.trans hself)⟩

theorem dotted_effective : effective dotted dottedArguments = .ok dottedOptions := by
  cbv

theorem dotted_inputs : inputs dotted (utf8 "in") = .ok [utf8 "in/..json", utf8 "in/..x.json"] := by
  cbv

theorem dotted_run : ∃ paths, (run dotted dottedArguments none).result = .ok paths := by
  have hnames : documentName (utf8 "in/..json") = "." ∧ documentName (utf8 "in/..x.json") = "..x" :=
    ⟨by cbv, by cbv⟩
  have hsmall : ∀ file ∈ [utf8 "in/..json", utf8 "in/..x.json"],
      ∃ loc, dotted.locate file = .ok loc ∧ dotted.get? loc = some (.file (utf8 smallText)) := by
    simp only [List.forall_mem_cons]
    exact ⟨⟨[utf8 "in", utf8 "..json"], by cbv, rfl⟩, ⟨[utf8 "in", utf8 "..x.json"], by cbv, rfl⟩, List.forall_mem_nil _⟩
  have hinput : dottedOptions.input = some (utf8 "in") := rfl
  obtain ⟨document, -, hfound⟩ := documents_of_smallText hinput dotted_inputs (by simp) hsmall
  simp only [List.map_cons, List.map_nil, hnames] at hfound
  have hdot : ∀ text, writeOutput dotted (utf8 "out") (outputName .markdown ".") text =
      (dottedWith [(".-docs.md", utf8 text)], .ok (utf8 "out/.-docs.md")) := by
    intro text
    cbv
  have hdots : ∀ old text, writeOutput (dottedWith [(".-docs.md", old)]) (utf8 "out") (outputName .markdown "..x") text =
      (dottedWith [(".-docs.md", old), ("..x-docs.md", utf8 text)], .ok (utf8 "out/..x-docs.md")) := by
    intro old text
    cbv
  rw [run_of_documents dotted_effective hfound rfl]
  simp only [dottedOptions]
  rw [writeAll_cons_ok (".", document) (hdot _), writeAll_cons_ok ("..x", document) (hdots _ _)]
  exact ⟨_, rfl⟩

/-- Stems of dots name documents as others do, and what is written stays in the output directory. -/
theorem inputs_named_dotted : dotted.Proper ∧ TextNames dotted (utf8 "in") ∧
    effective dotted dottedArguments = .ok dottedOptions ∧
    inputs dotted (utf8 "in") = .ok [utf8 "in/..json", utf8 "in/..x.json"] ∧
    Path.fileName? (utf8 "in/..json") = some (utf8 (documentName (utf8 "in/..json") ++ ".json")) ∧
    (run dotted dottedArguments none).result = .ok [utf8 "out/.-docs.md", utf8 "out/..x-docs.md"] := by
  obtain ⟨files, hfiles, -, hnames, hruns⟩ := inputs_named dotted (utf8 "in")
  cases hfiles.symm.trans dotted_inputs
  have hname := hnames dotted_proper dotted_textNames (utf8 "in/..json") List.mem_cons_self
  obtain ⟨paths, hpaths⟩ := dotted_run
  have hwrites := hruns dottedArguments none dottedOptions (utf8 "out") dotted_effective rfl rfl
  obtain rfl := hwrites.result paths hpaths
  exact ⟨dotted_proper, dotted_textNames, dotted_effective, dotted_inputs, Path.fileName?_eq_some_iff.mpr hname, by
    rw [hpaths]; cbv⟩

end Generator

end RouteBook
