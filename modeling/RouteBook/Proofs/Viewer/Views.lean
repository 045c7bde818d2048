import RouteBook.Proofs.Generator.Loading
import RouteBook.Proofs.Generator.Regeneration
import RouteBook.Proofs.Viewer.Index

/-! When the viewer shows a page. A request for a document is answered with its page if and only if it asks for one name,
the name is that of a document, and the path to it leads to a file that holds a text. The links of the list ask for files
that are there, so each of them leads to the page of its file, unless the file holds no text or the path to it is too long
to be looked up; then reading it fails. -/

namespace RouteBook.Viewer

open FileTree
open Generator (slashed)
open Http (Request)

variable {tree : FileTree} {dir : Path} {loc : Location} {request : Request} {name text html : String} {content : Bytes}

/-! ### Requests for a page -/

/-- A request asks for the document of a name and nothing else, and the path to it leads to a file with a text. -/
structure Views (tree : FileTree) (dir : Path) (request : Request) (name text : String) : Prop where
  asks : fileNames request = [name]
  noSlash : '/' ∉ name.toList
  noBackslash : '\\' ∉ name.toList
  suffix : ".md".toList <:+ name.toList
  file : ∃ loc, tree.locate (dir.join (utf8 name)) = .ok loc ∧ tree.get? loc = some (.file (utf8 text))

theorem readText_eq_ok_iff {path : Path} : tree.readText path = .ok text ↔ tree.readFile path = .ok (utf8 text) := by
  refine ⟨fun h => ?_, Generator.readText_of_readFile⟩
  rw [readText] at h
  cases hread : tree.readFile path with
  | error e =>
      rw [hread] at h
      cases h
  | ok content =>
      simp only [hread, bind, Except.bind] at h
      split at h
      · next found hfound =>
        cases h
        rw [utf8?_eq_some_iff.mp hfound]
      · cases h

/-- A page is made of the text that is read under the name of a document. -/
theorem page_eq_ok_iff : page tree dir (some name) = .ok html ↔
    isDocumentName name = true ∧ ∃ text, tree.readFile (dir.join (utf8 name)) = .ok (utf8 text) ∧
      html = documentPage name text := by
  constructor
  · intro h
    by_cases hdocument : isDocumentName name = true
    · have hfilter : (some name).filter isDocumentName = some name := by simp [hdocument]
      rw [page, hfilter] at h
      cases hread : tree.readText (dir.join (utf8 name)) with
      | ok text =>
          simp only [hread, Except.ok.injEq] at h
          exact ⟨hdocument, text, readText_eq_ok_iff.mp hread, h.symm⟩
      | error e =>
          simp only [hread] at h
          split_ifs at h
    · have hfilter : (some name).filter isDocumentName = none := by simp [hdocument]
      rw [page, hfilter] at h
      cases h
  · rintro ⟨hdocument, text, hread, rfl⟩
    exact page_of_readFile hread hdocument

theorem Views.answers (h : Views tree dir request name text) (hmethod : request.method = "GET")
    (hpath : request.uri.pathText = "/view") : Answers (viewer tree dir) request 200 (documentPage name text) :=
  answers_page hmethod hpath h.asks (page_of_readFile (readFile_eq_ok_iff.mpr h.file)
    (isDocumentName_iff.mpr ⟨h.noSlash, h.noBackslash, h.suffix⟩))

/-- Nothing but the page of a document is answered as a success. -/
theorem exists_views (hmethod : request.method = "GET") (hpath : request.uri.pathText = "/view")
    (h : (viewer tree dir request).1.status = 200) : ∃ name text, Views tree dir request name text := by
  rw [viewer_view hmethod hpath, status_withLength, view] at h
  obtain ⟨-, hrequested⟩ | ⟨name, hnames, hrequested⟩ | ⟨-, refusal, hrequested⟩ := requested_cases request
  all_goals simp only [hrequested] at h
  · cases h
  · cases hpage : page tree dir (some name) with
    | ok html =>
        obtain ⟨hdocument, text, hread, -⟩ := page_eq_ok_iff.mp hpage
        obtain ⟨hslash, hback, hsuffix⟩ := isDocumentName_iff.mp hdocument
        exact ⟨name, text, hnames, hslash, hback, hsuffix, readFile_eq_ok_iff.mp hread⟩
    | error e =>
        rw [hpage] at h
        cases e <;> cases h
  · cases h

/-! ### Links of the list -/

/-- What the viewer answers where reading fails. -/
def failureText : String := "Internal Server Error"

/-- A target leads to a file: requests for it are answered with the page of the text in the file, or with a failure if it
holds no text or the path to it is too long. -/
structure Opens (tree : FileTree) (dir : Path) (target name : String) (content : Bytes) : Prop where
  shown : ∀ request text, Gets request target → content = utf8 text → (dir.join (utf8 name)).length < pathLimit →
    Answers (viewer tree dir) request 200 (documentPage name text)
  failed : ∀ request, Gets request target →
    (∀ text, content ≠ utf8 text) ∨ pathLimit ≤ (dir.join (utf8 name)).length →
    Answers (viewer tree dir) request 500 failureText

/-- A text that cannot be read, although something is there, is a failure. -/
theorem answers_failure {e : IoError} (hmethod : request.method = "GET") (hpath : request.uri.pathText = "/view")
    (hnames : fileNames request = [name]) (hdocument : isDocumentName name = true)
    (hread : tree.readText (dir.join (utf8 name)) = .error e) (he : e.isNotFound = false) :
    Answers (viewer tree dir) request 500 failureText := by
  have hfilter : (some name).filter isDocumentName = some name := by simp [hdocument]
  have hpage : page tree dir (some name) = .error (.io (dir.join (utf8 name)) e) := by
    rw [page, hfilter]
    simp [hread, he]
  rw [answers_withLength_iff (viewer_view hmethod hpath), view, requested_of_fileNames hnames]
  simp only [hpage]
  exact ⟨rfl, rfl⟩

theorem opens_of_file {item : Item} (hproper : tree.Proper) (hloc : tree.locate dir = .ok loc)
    (hfile : tree.get? (loc ++ [utf8 name]) = some (.file content)) (hdocument : isDocumentName name = true)
    (hitem : item.Shows name) : Opens tree dir item.address name content := by
  have hread := hproper.readFile_join hloc hfile
  refine ⟨fun request text hrequest hcontent hshort => ?_, fun request hrequest hcause => ?_⟩
  · rw [if_neg (not_le.mpr hshort), hcontent] at hread
    obtain ⟨hpath, hnames⟩ := hitem.asks request hrequest
    exact answers_page hrequest.1 hpath hnames (page_of_readFile hread hdocument)
  · obtain ⟨hpath, hnames⟩ := hitem.asks request hrequest
    -- The length of the path is checked before anything is read, so it decides first.
    by_cases hlong : pathLimit ≤ (dir.join (utf8 name)).length
    · rw [if_pos hlong, ← readText_eq_error_iff (by simp)] at hread
      exact answers_failure hrequest.1 hpath hnames hdocument hread (by decide)
    · rw [if_neg hlong] at hread
      exact answers_failure hrequest.1 hpath hnames hdocument
        (Generator.readText_of_not_text hread (hcause.resolve_right hlong)) rfl

/-- The list that is shown is that of a directory, or an empty one. -/
theorem index_cases (hmethod : request.method = "GET") (hpath : request.uri.pathText = "/")
    (h : Answers (viewer tree dir) request 200 html) :
    html = indexPage [] ∨
    ∃ loc, tree.locate dir = .ok loc ∧ tree.get? loc = some .dir ∧ html = indexPage (documentList tree loc) := by
  by_cases hdir : tree.isDir dir = true
  · obtain ⟨loc, hloc, hget⟩ := isDir_iff.mp hdir
    have hlist := answers_root hloc hget hmethod hpath
    exact Or.inr ⟨loc, hloc, hget, utf8_injective (h.2.symm.trans hlist.2)⟩
  · obtain ⟨e, hread⟩ := Generator.readDir_of_not_dir (Bool.eq_false_of_not_eq_true hdir)
    rw [answers_withLength_iff (viewer_root hmethod hpath), list, documentNames, hread] at h
    by_cases he : e.isNotFound = true
    · simp only [he, if_true] at h
      exact Or.inl (utf8_injective h.2.symm)
    · simp only [he] at h
      cases h.1

/-- A request for a page succeeds if and only if it asks for one name, the name is that of a document and the path to it
leads to a file with a text, and the page is that of the text. On a tree of which the names in the directory are texts,
every item of the list stands for a file of the directory and its link opens that file. -/
theorem view_exact (tree : FileTree) (dir : Path) :
    (∀ request, request.method = "GET" → request.uri.pathText = "/view" →
      ((viewer tree dir request).1.status = 200 ↔ ∃ name text, Views tree dir request name text) ∧
      ∀ name text, Views tree dir request name text →
        Answers (viewer tree dir) request 200 (documentPage name text)) ∧
    (tree.Proper → (∀ loc, tree.locate dir = .ok loc → Textual tree loc) →
      ∀ request html, request.method = "GET" → request.uri.pathText = "/" → Answers (viewer tree dir) request 200 html →
        ∃ items, pageItems html = some items ∧ ∀ item ∈ items, ∃ name loc content, item.Shows name ∧
          tree.locate dir = .ok loc ∧ tree.get? (loc ++ [utf8 name]) = some (.file content) ∧
          Opens tree dir item.address name content) := by
  refine ⟨fun request hmethod hpath => ⟨⟨exists_views hmethod hpath, ?_⟩, fun name text h => h.answers hmethod hpath⟩, ?_⟩
  · rintro ⟨name, text, h⟩
    exact (h.answers hmethod hpath).1
  · intro hproper htext request html hmethod hpath hanswers
    obtain rfl | ⟨loc, hloc, hdir, rfl⟩ := index_cases hmethod hpath hanswers
    · exact ⟨[], pageItems_indexPage (by simp), by simp⟩
    · have hviewable : ∀ name ∈ documentList tree loc, Viewable tree loc name :=
        fun name => (mem_documentList_iff_viewable hproper (htext loc hloc)).mp
      refine ⟨_, pageItems_indexPage fun name hname => (listable_of_viewable hproper (hviewable name hname)).1, ?_⟩
      intro item hitem
      obtain ⟨name, hname, rfl⟩ := List.mem_map.mp hitem
      obtain ⟨content, hfile⟩ := (hviewable name hname).file
      have hshows := shows_itemOf (listable_of_viewable hproper (hviewable name hname)).2
      exact ⟨name, loc, content, hshows, hloc, hfile,
        opens_of_file hproper hloc hfile (isDocumentName_of_viewable hproper (hviewable name hname)) hshows⟩

/-- A directory with a document that holds a text and one that does not. -/
def archive : FileTree where
  entries := [([utf8 "in"], .dir), ([utf8 "in", utf8 "x.md"], .file (utf8 "# X")), ([utf8 "in", utf8 "y.md"], .file [255])]
  cwd := []

/-- The request that the link to a file makes. -/
def following (name : String) : Request where
  method := "GET"
  uri := ⟨none, [], "/view".toList, some (Http.fieldQuery "file" name)⟩
  headers := []
  body := []

theorem gets_following (h : (utf8 name).length ≤ nameLimit) : Gets (following name) (itemOf name).address :=
  ⟨rfl, address_itemOf name ▸ parse_documentLink h⟩

theorem archive_proper : archive.Proper := by decide

theorem archive_locate {more : Nat} (h : more + 3 < pathLimit) : archive.locate (slashed more) = .ok [utf8 "in"] :=
  Generator.locate_slashed rfl rfl h

theorem archive_textual {more : Nat} (h : more + 3 < pathLimit) :
    ∀ loc, archive.locate (slashed more) = .ok loc → Textual archive loc := by
  have hnames : (archive.children [utf8 "in"]).map Prod.fst = ["x.md", "y.md"].map utf8 := by cbv
  intro loc hloc
  cases (archive_locate h).symm.trans hloc
  exact textual_of_names hnames

theorem archive_index {more : Nat} (h : more + 3 < pathLimit) :
    Answers (viewer archive (slashed more)) home 200 (indexPage ["x.md", "y.md"]) := by
  have hlist : documentList archive [utf8 "in"] = ["x.md", "y.md"] := by cbv
  exact hlist ▸ answers_root (archive_locate h) rfl rfl (by cbv)

theorem archive_items : pageItems (indexPage ["x.md", "y.md"]) = some [itemOf "x.md", itemOf "y.md"] :=
  pageItems_indexPage (by decide)

/-- The document with a text is shown, by its link and whatever else asks for it; the link of the other one fails. -/
theorem view_exact_archive : archive.Proper ∧ (∀ loc, archive.locate (slashed 0) = .ok loc → Textual archive loc) ∧
    inward.method = "GET" ∧ inward.uri.pathText = "/view" ∧ Views archive (slashed 0) inward "x.md" "# X" ∧
    Answers (viewer archive (slashed 0)) inward 200 (documentPage "x.md" "# X") ∧
    home.method = "GET" ∧ home.uri.pathText = "/" ∧
    Answers (viewer archive (slashed 0)) home 200 (indexPage ["x.md", "y.md"]) ∧
    Answers (viewer archive (slashed 0)) (following "y.md") 500 failureText := by
  have hshort : 0 + 3 < pathLimit := by decide
  have hview : inward.uri.pathText = "/view" := by cbv
  have hroot : home.uri.pathText = "/" := by cbv
  have hviews : Views archive (slashed 0) inward "x.md" "# X" :=
    ⟨fileNames_inward, by decide, by decide, by decide, [utf8 "in", utf8 "x.md"], by cbv, rfl⟩
  obtain ⟨hpages, hlinks⟩ := view_exact archive (slashed 0)
  obtain ⟨items, hitems, hopens⟩ :=
    hlinks archive_proper (archive_textual hshort) home _ rfl hroot (archive_index hshort)
  cases archive_items.symm.trans hitems
  obtain ⟨name, loc, content, hshows, hloc, hfile, hopen⟩ := hopens (itemOf "y.md") (by simp)
  cases (archive_locate hshort).symm.trans hloc
  cases rightUnique_shows hshows (shows_itemOf (by decide))
  have hcontent : content = [255] := (Entry.file.inj (Option.some.inj hfile)).symm
  refine ⟨archive_proper, archive_textual hshort, rfl, hview, hviews, (hpages inward rfl hview).2 _ _ hviews, rfl, hroot,
    archive_index hshort, hopen.failed _ (gets_following (by decide)) (Or.inl fun text htext => ?_)⟩
  have hnone : utf8? [255] = none := by cbv
  rw [utf8?_eq_some_iff.mpr (hcontent.symm.trans htext)] at hnone
  cases hnone

/-- With as many slashes as still let the directory be listed, the path to the document is too long: its link fails,
although the document holds a text. -/
theorem link_fails : archive.Proper ∧ (∀ loc, archive.locate (slashed 4089) = .ok loc → Textual archive loc) ∧
    archive.locate (slashed 4089) = .ok [utf8 "in"] ∧
    archive.get? [utf8 "in", utf8 "x.md"] = some (.file (utf8 "# X")) ∧
    home.method = "GET" ∧ home.uri.pathText = "/" ∧
    ∃ html items item request, Answers (viewer archive (slashed 4089)) home 200 html ∧ pageItems html = some items ∧
      item ∈ items ∧ item.Shows "x.md" ∧ Gets request item.address ∧
      Answers (viewer archive (slashed 4089)) request 500 failureText := by
  have hshort : 4089 + 3 < pathLimit := by decide
  have hlong : pathLimit ≤ ((slashed 4089).join (utf8 "x.md")).length := by
    have hname : (utf8 "x.md").length = 4 := rfl
    rw [Generator.join_slashed 4089 (by decide), List.length_append, Generator.length_slashed, hname]
    decide
  have hshows : (itemOf "x.md").Shows "x.md" := shows_itemOf (by decide)
  have hgets : Gets (following "x.md") (itemOf "x.md").address := gets_following (by decide)
  have hopens : Opens archive (slashed 4089) (itemOf "x.md").address "x.md" (utf8 "# X") :=
    opens_of_file archive_proper (archive_locate hshort) rfl (by cbv) hshows
  exact ⟨archive_proper, archive_textual hshort, archive_locate hshort, rfl, rfl, by cbv, _, _, itemOf "x.md",
    following "x.md", archive_index hshort, archive_items, by simp, hshows, hgets,
    hopens.failed _ hgets (Or.inr hlong)⟩

end RouteBook.Viewer
