import RouteBook.Proofs.Generator.Runs
import RouteBook.Proofs.Text.Decoding
import RouteBook.Proofs.Viewer.Answers

/-! What the generator writes, the viewer shows. After a run that succeeds in a tree without links, the directory that
was written into is there, with the files of the documents in it. The viewer takes such a file for a document unless
its name holds a backslash. The link in the list is taken apart into the name again, so that it leads to the page of
the text that was written. -/

namespace RouteBook.Viewer

open FileTree
open Generator (Arguments Options run effective documents outputName plain_outputName)
open Http (Request Response Uri)

variable {tree : FileTree} {dir : Path} {loc : Location} {request : Request} {file name markdown : String}

/-! ### Names of generated files -/

/-- A file of the generator is one for the viewer, unless its name holds a backslash. -/
theorem isDocumentName_outputName (hname : '/' ∉ name.toList) :
    isDocumentName (outputName .markdown name) = true ↔ '\\' ∉ name.toList := by
  have hlist : (outputName .markdown name).toList = name.toList ++ "-docs.md".toList := String.toList_append ..
  have hsuffix : markdownSuffix <:+ (outputName .markdown name).toList := by
    rw [hlist]
    exact ⟨name.toList ++ "-docs".toList, by rw [List.append_assoc]; rfl⟩
  have hback : '\\' ∈ (outputName .markdown name).toList ↔ '\\' ∈ name.toList := by
    have hending : '\\' ∉ "-docs.md".toList := by decide
    rw [hlist, List.mem_append, or_iff_left hending]
  rw [isDocumentName, Path.components_of_plain (plain_outputName hname)]
  simp [hsuffix, hback]

/-! ### Links -/

/-- The target of the link to a document. -/
def documentLink (file : String) : String := "/view?file=" ++ Text.percentEncode (utf8 file)

/-- A link to a document as it stands in the list. -/
def anchor (file : String) : String := "<a href=\"" ++ documentLink file ++ "\">" ++ Text.escapeHtml file ++ "</a>"

/-- The link to a document is a target that asks for it. -/
theorem parse_documentLink (h : (utf8 file).length ≤ nameLimit) :
    Uri.parse (documentLink file) = .ok ⟨none, [], "/view".toList, some (Http.fieldQuery "file" file)⟩ := by
  have hlink : documentLink file = "/view" ++ "?" ++ "file" ++ "=" ++ Text.percentEncode (utf8 file) := rfl
  have hfixed : (utf8 "/view").length = 5 ∧ (utf8 "file").length = 4 := by decide
  have hpath : "/view".toList.all Uri.isPathChar = true := by decide
  have hname : "file".toList.all Uri.isQueryChar = true := by decide
  rw [hlink]
  apply Http.parse_fieldQuery (by decide) (List.all_eq_true.mp hpath) (List.all_eq_true.mp hname)
  rw [hfixed.1, hfixed.2]
  simp only [nameLimit] at h
  simp only [Uri.sizeLimit]
  omega

theorem fileNames_of_fieldQuery (hquery : request.uri.query = some (Http.fieldQuery "file" file)) :
    fileNames request = [file] := by
  have hkey : Http.formDecode (utf8 "file") = "file" := by cbv
  rw [fileNames, hquery, Option.getD_some, Http.formPairs_fieldQuery (by decide +kernel), hkey]
  rfl

/-! ### The list -/

/-- Backslashes stand in escaped texts as they are, and no others do. -/
theorem mem_escapeHtml_iff {text : String} : '\\' ∈ (Text.escapeHtml text).toList ↔ '\\' ∈ text.toList := by
  have hchar : ∀ c : Char, '\\' ∈ ((Text.htmlReference? c).getD c.toString).toList ↔ c = '\\' := by
    intro c
    unfold Text.htmlReference?
    split_ifs with h h h h h
    all_goals first | (subst h; decide) | simp [eq_comm]
  rw [Text.escapeHtml, String.toList_join, List.flatMap_map, List.mem_flatMap]
  simp only [hchar, exists_eq_right]

theorem not_mem_percentEncode (bytes : Bytes) : '\\' ∉ (Text.percentEncode bytes).toList := by
  have hbyte : ∀ b : UInt8, '\\' ∉ Text.encodeByte b := Text.forall_byte (by decide +kernel)
  rw [Text.toList_percentEncode, List.mem_flatMap]
  rintro ⟨b, -, hb⟩
  exact hbyte b hb

/-- The list in front of its first item. -/
def listHead : String :=
  "<!DOCTYPE html>\n<html>\n<head><meta charset=\"utf-8\"><title>" ++ "AutoDoc Viewer" ++ "</title></head>\n<body>\n" ++
    "<h1>Available Docs</h1>\n<ul>"

/-- The list behind its last item. -/
def listFoot : String := "</ul>\n" ++ "</body>\n</html>\n"

theorem indexPage_eq (files : List String) :
    indexPage files = listHead ++ String.join (files.map indexItem) ++ listFoot := by
  unfold indexPage shell listHead listFoot
  simp only [String.append_assoc]

theorem indexItem_eq (file : String) : indexItem file = "<li>" ++ anchor file ++ "</li>" := by
  have hopen : "<li><a href=\"/view?file=" = "<li>" ++ ("<a href=\"" ++ "/view?file=") := by decide
  have hclose : "</a></li>" = "</a>" ++ "</li>" := by decide
  unfold indexItem anchor documentLink
  rw [hopen, hclose]
  simp only [String.append_assoc]

theorem toList_indexPage (files : List String) :
    (indexPage files).toList =
      listHead.toList ++ files.flatMap (fun file => (indexItem file).toList) ++ listFoot.toList := by
  rw [indexPage_eq, String.toList_append, String.toList_append, String.toList_join, List.flatMap_map]

theorem anchor_indexPage {files : List String} (h : file ∈ files) : (anchor file).toList <:+: (indexPage files).toList := by
  obtain ⟨before, after, rfl⟩ := List.append_of_mem h
  rw [toList_indexPage, List.flatMap_append, List.flatMap_cons, indexItem_eq, String.toList_append, String.toList_append]
  generalize (anchor file).toList = link
  exact ⟨listHead.toList ++ before.flatMap (fun file => (indexItem file).toList) ++ "<li>".toList,
    "</li>".toList ++ after.flatMap (fun file => (indexItem file).toList) ++ listFoot.toList,
    by simp only [List.append_assoc]⟩

theorem not_mem_append {c : Char} {front back : String} (hfront : c ∉ front.toList) (hback : c ∉ back.toList) :
    c ∉ (front ++ back).toList := by
  rw [String.toList_append, List.mem_append, not_or]
  exact ⟨hfront, hback⟩

/-- A list of names without backslashes holds none. -/
theorem not_mem_indexPage {files : List String} (h : ∀ file ∈ files, '\\' ∉ file.toList) :
    '\\' ∉ (indexPage files).toList := by
  have hitem : ∀ file ∈ files, '\\' ∉ (indexItem file).toList := by
    intro file hfile
    have hopen : '\\' ∉ "<li><a href=\"/view?file=".toList := by decide
    have hmiddle : '\\' ∉ "\">".toList := by decide
    have hlink := not_mem_append hopen (not_mem_percentEncode (utf8 file))
    have htext := not_mem_append (not_mem_append hlink hmiddle) (mt mem_escapeHtml_iff.mp (h file hfile))
    exact not_mem_append htext (by decide)
  rw [toList_indexPage, List.mem_append, List.mem_append, List.mem_flatMap]
  rintro ((hmem | ⟨file, hfile, hmem⟩) | hmem)
  · exact absurd hmem (by decide +kernel)
  · exact hitem file hfile hmem
  · exact absurd hmem (by decide +kernel)

/-! ### Files that are shown -/

/-- A `GET` request for a target. -/
def Gets (request : Request) (target : String) : Prop := request.method = "GET" ∧ Uri.parse target = .ok request.uri

/-- The viewer of a directory lists a file, and its link in the list leads to the page of a text. -/
structure Shown (tree : FileTree) (dir : Path) (file markdown : String) : Prop where
  listed : ∀ request, request.method = "GET" → request.uri.pathText = "/" →
    ∃ text, Answers (viewer tree dir) request 200 text ∧ (anchor file).toList <:+: text.toList
  linked : ∃ uri, Uri.parse (documentLink file) = .ok uri
  viewed : ∀ request, Gets request (documentLink file) →
    Answers (viewer tree dir) request 200 (documentPage file markdown)

/-- The viewer of a directory does not list a file, and whatever request asks for it, the file is missing. -/
structure Hidden (tree : FileTree) (dir : Path) (file : String) : Prop where
  unlisted : ∀ request, request.method = "GET" → request.uri.pathText = "/" →
    ∃ text, Answers (viewer tree dir) request 200 text ∧ ¬(Text.escapeHtml file).toList <:+: text.toList
  missing : ∀ request, request.method = "GET" → request.uri.pathText = "/view" → fileNames request = [file] →
    Answers (viewer tree dir) request 404 notFoundText

/-- The names in the list of the documents directly in a location. -/
def documentList (tree : FileTree) (loc : Location) : List String :=
  ((tree.children loc).filterMap listed?).mergeSort fun a b => bytesLe (utf8 a) (utf8 b)

theorem mem_documentList_iff : name ∈ documentList tree loc ↔ ∃ item ∈ tree.children loc, listed? item = some name := by
  rw [documentList, List.mem_mergeSort, List.mem_filterMap]

/-- The list shows the documents directly in a directory. -/
theorem answers_root (hloc : tree.locate dir = .ok loc) (hdir : tree.get? loc = some .dir)
    (hmethod : request.method = "GET") (hpath : request.uri.pathText = "/") :
    Answers (viewer tree dir) request 200 (indexPage (documentList tree loc)) := by
  rw [answers_withLength_iff (viewer_root hmethod hpath), list, documentNames_eq hloc hdir]
  exact ⟨rfl, rfl⟩

theorem isDocumentName_of_listed {item : Name × Entry} (h : listed? item = some name) : isDocumentName name = true := by
  unfold listed? at h
  split at h
  · split_ifs at h with hdocument
    cases h
    exact hdocument
  · cases h

theorem not_mem_of_isDocumentName (h : isDocumentName name = true) : '\\' ∉ name.toList :=
  (isDocumentName_iff.mp h).2.1

/-- A request for the link to a document asks for that document alone. -/
theorem Gets.link (h : Gets request (documentLink file)) (hshort : (utf8 file).length ≤ nameLimit) :
    request.uri.pathText = "/view" ∧ fileNames request = [file] := by
  have huri := Except.ok.inj ((parse_documentLink hshort).symm.trans h.2)
  exact ⟨by rw [← huri, Uri.pathText, String.ofList_toList], fileNames_of_fieldQuery (by rw [← huri])⟩

theorem requested_of_fileNames (h : fileNames request = [file]) : requested request = .ok (some file) := by
  obtain ⟨hnames, -⟩ | ⟨name, hnames, hrequested⟩ | ⟨hmany, -⟩ := requested_cases request
  · rw [hnames] at h
    cases h
  · rw [hnames] at h
    cases h
    exact hrequested
  · simp [h] at hmany

theorem page_of_readFile (hread : tree.readFile (dir.join (utf8 file)) = .ok (utf8 markdown))
    (hdocument : isDocumentName file = true) : page tree dir (some file) = .ok (documentPage file markdown) := by
  have hfilter : (some file).filter isDocumentName = some file := by simp [hdocument]
  rw [page, hfilter]
  simp only [Generator.readText_of_readFile hread]

/-- A request for one name is answered with its page. -/
theorem answers_page {html : String} (hmethod : request.method = "GET") (hpath : request.uri.pathText = "/view")
    (hnames : fileNames request = [file]) (hpage : page tree dir (some file) = .ok html) :
    Answers (viewer tree dir) request 200 html := by
  rw [answers_withLength_iff (viewer_view hmethod hpath), view, requested_of_fileNames hnames]
  simp only [hpage]
  exact ⟨rfl, rfl⟩

/-- A file under the name of a document is shown. -/
theorem shown_of_file (hloc : tree.locate dir = .ok loc) (hdir : tree.get? loc = some .dir)
    (hget : tree.get? (loc ++ [utf8 file]) = some (.file (utf8 markdown)))
    (hread : tree.readFile (dir.join (utf8 file)) = .ok (utf8 markdown)) (hshort : (utf8 file).length ≤ nameLimit)
    (hdocument : isDocumentName file = true) : Shown tree dir file markdown := by
  refine ⟨fun request hmethod hpath => ?_, ⟨_, parse_documentLink hshort⟩, fun request hrequest => ?_⟩
  · refine ⟨_, answers_root hloc hdir hmethod hpath, anchor_indexPage (mem_documentList_iff.mpr ?_)⟩
    refine ⟨(utf8 file, .file (utf8 markdown)), ?_, ?_⟩
    · -- The name leads to the first entry of its directory that has it, so it is among the entries.
      rw [get?_append_singleton] at hget
      obtain ⟨before, after, hchildren, -⟩ := List.lookup_eq_some_iff.mp hget
      simp [hchildren]
    · simp only [listed?, lossy_utf8, hdocument, if_true]
  · obtain ⟨hpath, hnames⟩ := hrequest.link hshort
    exact answers_page hrequest.1 hpath hnames (page_of_readFile hread hdocument)

theorem hidden_of_backslash (hloc : tree.locate dir = .ok loc) (hdir : tree.get? loc = some .dir)
    (hfile : '\\' ∈ file.toList) : Hidden tree dir file := by
  have hdocument : isDocumentName file ≠ true := fun h => not_mem_of_isDocumentName h hfile
  refine ⟨fun request hmethod hpath => ?_, fun request hmethod hpath hnames => ?_⟩
  · refine ⟨_, answers_root hloc hdir hmethod hpath, fun hinside => ?_⟩
    -- A backslash is written as it is, so the name cannot stand in a page that holds none.
    have hclean : ∀ name ∈ documentList tree loc, '\\' ∉ name.toList := by
      intro name hname
      obtain ⟨item, -, hlisted⟩ := mem_documentList_iff.mp hname
      exact not_mem_of_isDocumentName (isDocumentName_of_listed hlisted)
    exact not_mem_indexPage hclean (hinside.subset (mem_escapeHtml_iff.mpr hfile))
  · rw [view_notFound_iff hmethod hpath, hnames]
    simp [hdocument]

theorem Hidden.not_shown (h : Hidden tree dir file) (hshort : (utf8 file).length ≤ nameLimit) :
    ¬Shown tree dir file markdown := by
  intro hshown
  obtain ⟨uri, huri⟩ := hshown.linked
  have hgets : Gets ⟨"GET", uri, [], []⟩ (documentLink file) := ⟨rfl, huri⟩
  obtain ⟨hpath, hnames⟩ := hgets.link hshort
  have hmissing := (h.missing _ rfl hpath hnames).1
  rw [(hshown.viewed _ hgets).1] at hmissing
  cases hmissing

/-- A generated file that can be read is shown or hidden, as its name is. -/
theorem shown_iff_of_readFile (hclear : ∀ loc, tree.Clear loc) (hne : dir ≠ []) (hslash : '/' ∉ name.toList)
    (hread : tree.readFile (dir.join (utf8 (outputName .markdown name))) = .ok (utf8 markdown)) :
    (Shown tree dir (outputName .markdown name) markdown ↔ '\\' ∉ name.toList) ∧
      ('\\' ∈ name.toList → Hidden tree dir (outputName .markdown name)) := by
  obtain ⟨loc, hloc, hdir, hget, hshort⟩ := exists_dir_of_readFile hread hne (plain_outputName hslash) hclear
  have hhidden : '\\' ∈ name.toList → Hidden tree dir (outputName .markdown name) := by
    intro hback
    apply hidden_of_backslash hloc hdir
    rw [outputName, String.toList_append, List.mem_append]
    exact Or.inl hback
  refine ⟨⟨fun hshown hback => (hhidden hback).not_shown hshort hshown, fun hback => ?_⟩, hhidden⟩
  exact shown_of_file hloc hdir hget hread hshort ((isDocumentName_outputName hslash).mpr hback)

/-! ### Runs -/

variable {arguments : Arguments} {limit : Option Nat} {options : Options} {paths : List Path}

/-- What a run that succeeds without links has written is shown by the viewer of its output directory, for each name
with the text of the last document of that name, if and only if the name holds no backslash. With a backslash it is
neither listed nor found. -/
theorem run_shown_iff (hfree : tree.LinkFree) (hoptions : effective tree arguments = .ok options)
    (hformat : options.format = .markdown) (hdir : options.output = some dir) (hne : dir ≠ [])
    (hrun : (run tree arguments limit).result = .ok paths) :
    ∃ found, documents tree options = .ok found ∧ ∀ name ∈ found.map Prod.fst, '/' ∉ name.toList →
      ∃ before document after, found = before ++ (name, document) :: after ∧ name ∉ after.map Prod.fst ∧
        (Shown (run tree arguments limit).tree dir (outputName .markdown name) (Routes.markdownFor document name) ↔
          '\\' ∉ name.toList) ∧
        ('\\' ∈ name.toList → Hidden (run tree arguments limit).tree dir (outputName .markdown name)) := by
  obtain ⟨found, hfound⟩ := Generator.documents_of_run_ok hoptions hrun
  refine ⟨found, hfound, fun name hname hslash => ?_⟩
  rw [Generator.run_of_documents hoptions hfound hdir] at hrun ⊢
  obtain ⟨left, hall, hwrote⟩ | ⟨left, before, next, after, e, -, hall, -⟩ :=
    Generator.writeAll_cases found (hfree.clear tree.cwd)
  · rw [hall]
    -- Writing adds directories and files only, so the tree that is served has no links either.
    have hclear : ∀ loc, left.Clear loc := fun loc => hwrote.clear (hfree.clear loc)
    obtain ⟨before, document, after, hsplit, hlast, hread⟩ := hwrote.last_of_name hclear hfound hname
    rw [hformat] at hread
    exact ⟨before, document, after, hsplit, hlast, shown_iff_of_readFile hclear hne hslash hread⟩
  · rw [hall] at hrun
    cases hrun

/-- A run on the description of the service itself, under a name. -/
def namedArguments (name : String) : Arguments where
  format := some .markdown
  output := some (utf8 "out")
  name := some name

def namedOptions (name : String) : Options where
  input := none
  format := .markdown
  output := some (utf8 "out")
  name := name

theorem fresh_linkFree : fresh.LinkFree := by decide

theorem fresh_effective (name : String) : effective fresh (namedArguments name) = .ok (namedOptions name) := by
  cbv

theorem fresh_run (h : name = "x y" ∨ name = "x\\y") :
    (run fresh (namedArguments name) none).result = .ok [Generator.outputPath .markdown (utf8 "out") name] := by
  have hwrite : ∀ text, (Generator.writeOutput fresh (utf8 "out") (outputName .markdown name) text).2 =
      .ok (Generator.outputPath .markdown (utf8 "out") name) := by
    intro text
    rcases h with rfl | rfl <;> cbv
  rw [Generator.run_of_documents (fresh_effective name) rfl rfl]
  simp only [namedOptions]
  rw [Generator.writeAll_cons_ok (name, Service.document) (Prod.ext rfl (hwrite _))]
  rfl

/-- A name with a space is shown, and one with a backslash is not. -/
theorem run_shown_iff_fresh : fresh.LinkFree ∧
    effective fresh (namedArguments "x y") = .ok (namedOptions "x y") ∧ utf8 "out" ≠ [] ∧
    (run fresh (namedArguments "x y") none).result = .ok [Generator.outputPath .markdown (utf8 "out") "x y"] ∧
    Shown (run fresh (namedArguments "x y") none).tree (utf8 "out") "x y-docs.md"
      (Routes.markdownFor Service.document "x y") ∧
    Hidden (run fresh (namedArguments "x\\y") none).tree (utf8 "out") "x\\y-docs.md" := by
  have hne : utf8 "out" ≠ [] := by decide
  have hnamed : ∀ name, name = "x y" ∨ name = "x\\y" →
      (Shown (run fresh (namedArguments name) none).tree (utf8 "out") (outputName .markdown name)
        (Routes.markdownFor Service.document name) ↔ '\\' ∉ name.toList) ∧
      ('\\' ∈ name.toList →
        Hidden (run fresh (namedArguments name) none).tree (utf8 "out") (outputName .markdown name)) := by
    intro name hname
    obtain ⟨found, hfound, hshown⟩ := run_shown_iff fresh_linkFree (fresh_effective name) rfl rfl hne (fresh_run hname)
    cases hfound
    have hslash : '/' ∉ name.toList := by rcases hname with rfl | rfl <;> decide
    obtain ⟨before, document, after, hsplit, -, hview⟩ := hshown name (by simp [namedOptions]) hslash
    have hmem : (name, document) ∈ [((namedOptions name).name, Service.document)] := by
      rw [hsplit]
      simp
    rwa [(Prod.mk.inj (List.mem_singleton.mp hmem)).2] at hview
  refine ⟨fresh_linkFree, fresh_effective _, hne, fresh_run (Or.inl rfl), ?_, ?_⟩
  · exact (hnamed "x y" (Or.inl rfl)).1.mpr (by decide)
  · exact (hnamed "x\\y" (Or.inr rfl)).2 (by decide)

end RouteBook.Viewer
