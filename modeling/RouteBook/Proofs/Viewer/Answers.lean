import RouteBook.Proofs.Viewer.Confinement

/-! What the viewer answers. A request for a document that is not there gets the answer for missing documents as long
as the name is asked for once and, if it could be the name of a document, nothing but the absence of a file keeps it
from being read. -/

namespace RouteBook.Viewer

open FileTree
open Http (Request Response Handler)

variable {tree : FileTree} {dir : Path} {request : Request}

/-! ### Requests -/

/-- A service answers a request with a status and a text. -/
def Answers (service : Handler) (request : Request) (status : Nat) (text : String) : Prop :=
  (service request).1.status = status ∧ (service request).1.body = utf8 text

theorem status_withLength (response : Response) : response.withLength.status = response.status := by
  unfold Response.withLength
  split_ifs <;> rfl

theorem body_withLength (response : Response) : response.withLength.body = response.body := by
  unfold Response.withLength
  split_ifs <;> rfl

/-- An answer that has the status and the text of a response, whatever its other headers. -/
theorem answers_withLength_iff {service : Handler} {response : Response} {status : Nat} {text : String}
    (h : (service request).1 = response.withLength) :
    Answers service request status text ↔ response.status = status ∧ response.body = utf8 text := by
  rw [Answers, h, status_withLength, body_withLength]

/-- The list is at the root. -/
theorem viewer_root (hmethod : request.method = "GET") (hpath : request.uri.pathText = "/") :
    (viewer tree dir request).1 = (list tree dir request).1.withLength := by
  simp [viewer, Service.traced, Service.summed, Http.route, endpoints, hpath, Http.Endpoint.serve, Http.Endpoint.methods,
    hmethod]

theorem viewer_view (hmethod : request.method = "GET") (hpath : request.uri.pathText = "/view") :
    (viewer tree dir request).1 = (view tree dir request).1.withLength := by
  simp [viewer, Service.traced, Service.summed, Http.route, endpoints, hpath, Http.Endpoint.serve, Http.Endpoint.methods,
    hmethod]

/-- The names that a query asks for. -/
def fileNames (request : Request) : List String :=
  ((Http.formPairs (utf8 (String.ofList (request.uri.query.getD [])))).filter (·.1 = "file")).map Prod.snd

/-- A query that asks for more than one name is refused. -/
theorem requested_cases (request : Request) :
    (fileNames request = [] ∧ requested request = .ok none) ∨
    (∃ name, fileNames request = [name] ∧ requested request = .ok (some name)) ∨
    (1 < (fileNames request).length ∧ ∃ text, requested request = .error (.plain 400 text)) := by
  simp only [fileNames, requested]
  generalize (Http.formPairs (utf8 (String.ofList (request.uri.query.getD [])))).filter (·.1 = "file") = found
  rcases found with _ | ⟨first, _ | ⟨second, more⟩⟩
  · exact Or.inl ⟨rfl, rfl⟩
  · exact Or.inr (Or.inl ⟨first.2, rfl, rfl⟩)
  · exact Or.inr (Or.inr ⟨by simp, _, rfl⟩)

/-! ### Pages -/

theorem readText_eq_error_iff {path : Path} {e : IoError} (h : e ≠ .notText) :
    tree.readText path = .error e ↔ tree.readFile path = .error e := by
  rw [readText]
  cases hread : tree.readFile path with
  | error cause => simp [bind, Except.bind]
  | ok content =>
      simp only [bind, Except.bind]
      cases utf8? content with
      | some text => simp
      | none => simpa using h.symm

/-- The page of a name is missing if the name is not that of a document, or nothing is to be read under it. -/
theorem page_eq_notFound_iff {name : String} :
    page tree dir (some name) = .error .notFound ↔
      (isDocumentName name = true → tree.readFile (dir.join (utf8 name)) = .error (.os .noEntry)) := by
  by_cases hdocument : isDocumentName name = true
  · have hfilter : (some name).filter isDocumentName = some name := by simp [hdocument]
    rw [← readText_eq_error_iff (by simp), page, hfilter]
    cases hread : tree.readText (dir.join (utf8 name)) with
    | ok markdown => simp [hread, hdocument]
    | error e => by_cases he : e = .os .noEntry <;> simp [hread, hdocument, IoError.isNotFound, he]
  · have hfilter : (some name).filter isDocumentName = none := by simp [hdocument]
    simp [page, hfilter, hdocument]

/-- A page that is missing is answered as such, and nothing else is. -/
theorem view_notFound_iff (hmethod : request.method = "GET") (hpath : request.uri.pathText = "/view") :
    Answers (viewer tree dir) request 404 notFoundText ↔
      (fileNames request).length ≤ 1 ∧ ∀ name ∈ fileNames request, isDocumentName name = true →
        tree.readFile (dir.join (utf8 name)) = .error (.os .noEntry) := by
  rw [answers_withLength_iff (viewer_view hmethod hpath), view]
  obtain ⟨hnames, hrequested⟩ | ⟨name, hnames, hrequested⟩ | ⟨hmany, text, hrequested⟩ := requested_cases request
  all_goals simp only [hrequested]
  · have hpage : page tree dir none = .error .notFound := rfl
    rw [hpage]
    simp [hnames, ViewError.respond, Response.plain, Response.ofText]
  · have honly : ((fileNames request).length ≤ 1 ∧ ∀ name ∈ fileNames request, isDocumentName name = true →
        tree.readFile (dir.join (utf8 name)) = .error (.os .noEntry)) ↔ page tree dir (some name) = .error .notFound := by
      rw [page_eq_notFound_iff, hnames]
      simp
    rw [honly]
    cases page tree dir (some name) with
    | ok text => simp [Response.html, Response.ofText]
    | error e => cases e <;> simp [ViewError.respond, Response.plain, Response.ofText]
  · refine iff_of_false (fun h => ?_) fun h => absurd h.1 (not_le.mpr hmany)
    exact absurd h.1 (by simp [Response.plain, Response.ofText])

/-! ### What stands in the way of a missing document -/

/-- A document of a directory: a regular file directly in it whose name ends in `.md`. -/
def IsDocument (tree : FileTree) (dir : Path) (name : Name) : Prop :=
  ∃ loc content, tree.locate dir = .ok loc ∧ tree.get? (loc ++ [name]) = some (.file content) ∧ utf8 ".md" <:+ name

/-- Why a name under which there is no document does not count as missing. -/
inductive Obstacle (tree : FileTree) (dir : Path) (name : Name) : Prop
  | zeroByte (hzero : 0 ∈ name)
  | longPath (hlong : pathLimit ≤ (dir.join name).length)
  | longName (hdir : tree.isDir dir = true) (hlong : nameLimit < name.length)
  | directory {loc : Location} (hloc : tree.locate dir = .ok loc) (hget : tree.get? (loc ++ [name]) = some .dir)
  /-- A link that leads somewhere, or nowhere for another reason than that nothing is there. -/
  | link {loc : Location} {target : Path} (hloc : tree.locate dir = .ok loc)
      (hget : tree.get? (loc ++ [name]) = some (.link target))
      (hread : tree.readFile (dir.join name) ≠ .error (.os .noEntry))
  /-- The empty path is no directory, but names in it are looked up in the working directory. -/
  | emptyPath (hdir : dir = []) (hread : tree.readFile name ≠ .error (.os .noEntry))

variable {name : Name} {loc : Location}

theorem readFile_of_long {path : Path} (h : pathLimit ≤ path.length) : tree.readFile path ≠ .error (.os .noEntry) := by
  have hne : path ≠ [] := by
    rintro rfl
    simp [pathLimit] at h
  rw [readFile, locate, place, if_neg hne, if_pos h]
  split_ifs
  · simp [bind, Except.bind]
  · simp [bind, Except.bind, Errno.nameTooLong, Errno.noEntry]

/-- A directory that can be served: it is there, or nothing is. -/
def Servable (tree : FileTree) (dir : Path) : Prop :=
  tree.isDir dir = true ∨ tree.locate dir = .error (.os .noEntry)

theorem Servable.get? (h : Servable tree dir) (hloc : tree.locate dir = .ok loc) : tree.get? loc = some .dir := by
  rcases h with h | h
  · obtain ⟨found, hfound, hget⟩ := isDir_iff.mp h
    rwa [Except.ok.inj (hloc.symm.trans hfound)]
  · cases hloc.symm.trans h

theorem Servable.noZero (h : Servable tree dir) : 0 ∉ dir := by
  intro hzero
  have hplace : tree.locate dir = .error .zeroByte := by
    rw [locate, place, if_pos (List.contains_iff_mem.mpr hzero)]
    rfl
  rcases h with h | h
  · obtain ⟨loc, hloc, -⟩ := isDir_iff.mp h
    cases hloc.symm.trans hplace
  · cases h.symm.trans hplace

/-- An obstacle is what is met, not the absence of a file. -/
theorem Obstacle.readFile_ne (h : Obstacle tree dir name) (hdir : Servable tree dir) (hname : Path.Plain name) :
    tree.readFile (dir.join name) ≠ .error (.os .noEntry) := by
  cases h with
  | zeroByte hzero =>
      have hjoin : (dir.join name).contains 0 = true := by
        rw [Path.join_of_not_mem hname.noSlash, List.contains_iff_mem]
        split_ifs <;> simp [hzero]
      rw [readFile, locate, place, if_pos hjoin]
      simp [bind, Except.bind]
  | longPath hlong => exact readFile_of_long hlong
  | longName hfound hlong =>
      obtain ⟨loc, hloc, hget⟩ := isDir_iff.mp hfound
      obtain ⟨left, hplace⟩ := place_join_of_dir hloc hget hname
      rw [readFile, locate, hplace, walk_long hget hname hlong]
      split_ifs <;> simp [bind, Except.bind, Except.mapError, Errno.nameTooLong, Errno.noEntry]
  | directory hloc hget =>
      rw [readFile_join hloc (hdir.get? hloc) (by simp [hget]) hname, hget]
      split_ifs <;> simp [Errno.nameTooLong, Errno.isDirectory, Errno.noEntry]
  | link hloc hget hread => exact hread
  | emptyPath hempty hread =>
      rw [hempty, Path.join_of_not_mem hname.noSlash]
      exact hread

/-- Where there is no document, only an obstacle keeps a name from being missing. -/
theorem obstacle_of_readFile (hdir : Servable tree dir) (hname : Path.Plain name)
    (hnone : ∀ loc content, tree.locate dir = .ok loc → tree.get? (loc ++ [name]) ≠ some (.file content))
    (hread : tree.readFile (dir.join name) ≠ .error (.os .noEntry)) : Obstacle tree dir name := by
  by_cases hempty : dir = []
  · refine .emptyPath hempty ?_
    rw [hempty, Path.join_of_not_mem hname.noSlash] at hread
    exact hread
  have hzero : (dir.join name).contains 0 = true → 0 ∈ name := by
    have := hdir.noZero
    rw [Path.join_of_not_mem hname.noSlash, List.contains_iff_mem]
    split_ifs <;> simp [this, Path.slash]
  -- A link is an obstacle by itself; any other entry is met only after the checks on the name and the path.
  rcases id hdir with hfound | hmissing
  · obtain ⟨loc, hloc, hget⟩ := isDir_iff.mp hfound
    by_cases hlink : ∃ target, tree.get? (loc ++ [name]) = some (.link target)
    · obtain ⟨target, htarget⟩ := hlink
      exact .link hloc htarget hread
    rw [readFile_join hloc hget (not_exists.mp hlink) hname] at hread
    split_ifs at hread with hzero' hlong
    · exact .zeroByte (hzero hzero')
    · rcases hlong with hlong | hlong
      · exact .longPath hlong
      · exact .longName hfound hlong
    · cases hentry : tree.get? (loc ++ [name]) with
      | none => simp [hentry] at hread
      | some entry =>
          cases entry with
          | file content => exact absurd hentry (hnone loc content hloc)
          | dir => exact .directory hloc hentry
          | link target => exact absurd ⟨target, hentry⟩ hlink
  · rw [readFile, locate, place_join_of_missing hempty hmissing hname] at hread
    split_ifs at hread with hzero' hlong
    · exact .zeroByte (hzero hzero')
    · exact .longPath hlong
    · exact absurd rfl hread

/-- A request for a name that no document has is answered as one for a missing document if and only if it names no
second file and, where the name could be that of a document, nothing stands in the way. -/
theorem view_missing_iff (hdir : Servable tree dir) (hmethod : request.method = "GET")
    (hpath : request.uri.pathText = "/view") (hnone : ∀ name ∈ fileNames request, ¬IsDocument tree dir (utf8 name)) :
    Answers (viewer tree dir) request 404 notFoundText ↔
      (fileNames request).length ≤ 1 ∧
        ∀ name ∈ fileNames request, isDocumentName name = true → ¬Obstacle tree dir (utf8 name) := by
  rw [view_notFound_iff hmethod hpath]
  refine and_congr_right fun _ => forall₂_congr fun name hmem => imp_congr_right fun hdocument => ?_
  have hplain := plain_of_isDocumentName hdocument
  have hfile : ∀ loc content, tree.locate dir = .ok loc → tree.get? (loc ++ [utf8 name]) ≠ some (.file content) :=
    fun loc content hloc hget => hnone name hmem ⟨loc, content, hloc, hget, suffix_of_isDocumentName hdocument⟩
  refine ⟨fun hread h => h.readFile_ne hdir hplain hread, fun h => ?_⟩
  by_contra hread
  exact h (obstacle_of_readFile hdir hplain hfile hread)

/-- A directory with a directory in it that has the name of a document. -/
def nested : FileTree where
  entries := [([utf8 "docs"], .dir), ([utf8 "docs", utf8 "x.md"], .dir)]
  cwd := []

/-- A request for the directory in the place of a document. -/
def inward : Request where
  method := "GET"
  uri := ⟨none, [], "/view".toList, some "file=x.md".toList⟩
  headers := []
  body := []

theorem nested_locate : nested.locate (utf8 "docs") = .ok [utf8 "docs"] := by
  cbv

theorem nested_get? : nested.get? [utf8 "docs", utf8 "x.md"] = some .dir := by
  cbv

theorem fileNames_inward : fileNames inward = ["x.md"] := by
  cbv

theorem nested_none : ∀ name ∈ fileNames inward, ¬IsDocument nested (utf8 "docs") (utf8 name) := by
  rw [fileNames_inward]
  rintro name hname ⟨loc, content, hloc, hget, -⟩
  rw [List.mem_singleton.mp hname, ← Except.ok.inj (nested_locate.symm.trans hloc)] at hget
  cases nested_get?.symm.trans hget

/-- A directory in the place of a document is not answered as missing. -/
theorem view_missing_iff_nested : Servable nested (utf8 "docs") ∧ inward.method = "GET" ∧
    inward.uri.pathText = "/view" ∧ (∀ name ∈ fileNames inward, ¬IsDocument nested (utf8 "docs") (utf8 name)) ∧
    ¬Answers (viewer nested (utf8 "docs")) inward 404 notFoundText := by
  have hdir : Servable nested (utf8 "docs") := Or.inl (isDir_iff.mpr ⟨_, nested_locate, by cbv⟩)
  refine ⟨hdir, rfl, by cbv, nested_none, fun h => ?_⟩
  have hclear := ((view_missing_iff hdir rfl (by cbv) nested_none).mp h).2 "x.md" (by simp [fileNames_inward]) (by cbv)
  exact hclear (.directory nested_locate nested_get?)

end RouteBook.Viewer
