import Mathlib
import RouteBook.Proofs.FileTree.Directories
import RouteBook.Proofs.Text.Order
import RouteBook.Viewer.Library

/-! The viewer sees one directory. Of each entry directly in it the name and the kind can be told from its
answers, and of a Markdown file the content. Everything else is out of reach, whatever a request asks for: two
trees that agree so far get the same answers and the same log. -/

namespace RouteBook.Viewer

open FileTree
open Http (Request Response)

variable {dir : Path} {tree other : FileTree} {loc otherLoc : Location}

/-- What may be told of an entry: its kind, and the content of a Markdown file. -/
def glimpse (name : Name) : Entry → Entry
  | .file content => if utf8 ".md" <:+ name then .file content else .file []
  | entry => entry

/-- What may be told of the entries directly in a location. -/
def glimpses (tree : FileTree) (loc : Location) : List (Name × Entry) :=
  (tree.children loc).map fun item => (item.1, glimpse item.1 item.2)

/-- Two lists of entries hold the same under every name, which is one entry at most in a proper directory. The
order of the names does not count. -/
def SameByName (items others : List (Name × Entry)) : Prop :=
  ∀ name, (items.filter fun item => item.1 = name) = others.filter fun item => item.1 = name

/-- Two trees agree on the entries directly in a directory: on their names and kinds, and on the content of
Markdown files. -/
def SameEntries (dir : Path) (tree other : FileTree) : Prop :=
  ∀ loc otherLoc, tree.locate dir = .ok loc → other.locate dir = .ok otherLoc →
    SameByName (glimpses tree loc) (glimpses other otherLoc)

/-! ### Document names -/

theorem suffix_utf8 {name : String} (h : markdownSuffix <:+ name.toList) : utf8 ".md" <:+ utf8 name := by
  obtain ⟨front, hfront⟩ := h
  have hname : name = String.ofList front ++ ".md" := by
    apply String.toList_injective
    rw [String.toList_append, String.toList_ofList, ← hfront]
    rfl
  rw [hname, utf8_append]
  exact List.suffix_append _ _

theorem suffix_of_isDocumentName {name : String} (h : isDocumentName name = true) : utf8 ".md" <:+ utf8 name := by
  unfold isDocumentName at h
  rw [Bool.and_eq_true, List.isSuffixOf_iff_suffix] at h
  exact suffix_utf8 h.2

/-- A name that ends in `.md` and is a single piece is a plain one. -/
theorem plain_of_suffix {name : Name} (hsuffix : utf8 ".md" <:+ name) (hslash : Path.slash ∉ name) :
    Path.Plain name := by
  have hlength : 3 ≤ name.length := hsuffix.length_le
  refine ⟨?_, ?_, ?_, hslash⟩
  · rintro rfl
    simp at hlength
  · rintro rfl
    simp [Path.here] at hlength
  · rintro rfl
    simp [Path.above] at hlength

/-- A slash in a name that ends in `.md` leaves a last piece with that ending, and a component before it. -/
theorem components_ne_normal {path : Path} (hsuffix : utf8 ".md" <:+ path) (hslash : Path.slash ∈ path) (name : Name) :
    path.components ≠ [.normal name] := by
  obtain ⟨front, file, hpath, hfile⟩ := Text.exists_last_separator hslash
  have hending : utf8 ".md" <:+ file := by
    have hback : Path.slash :: file <:+ path := by rw [hpath]; exact List.suffix_append _ _
    rcases List.suffix_or_suffix_of_suffix hsuffix hback with h | h
    · rcases List.suffix_cons_iff.mp h with h | h
      · exact absurd (List.head_eq_of_cons_eq h) (by decide)
      · exact h
    · exact absurd (h.subset List.mem_cons_self) (by decide)
  have hplain := plain_of_suffix hending hfile
  have hpieces : path.pieces = Path.pieces front ++ [file] := by
    rw [hpath, Path.pieces, Text.pieces_append, Text.pieces_of_not_mem hfile]
    rfl
  -- Behind the single name of a path there are only empty pieces and dots, and the last piece is neither.
  intro heq
  obtain ⟨-, marks, hmarks, hmore⟩ := Path.components_eq_normal_iff.mp heq
  rcases List.append_eq_cons_iff.mp (hpieces.symm.trans hmore) with ⟨hnil, -⟩ | ⟨rest, -, hrest⟩
  · exact Text.pieces_ne_nil Path.slash front hnil
  · exact (hmarks file (by simp [hrest])).elim hplain.ne_nil hplain.ne_here

/-- The name of a document is a plain one. -/
theorem plain_of_isDocumentName {name : String} (h : isDocumentName name = true) : Path.Plain (utf8 name) := by
  apply plain_of_suffix (suffix_of_isDocumentName h)
  intro hslash
  have hcomponents := components_ne_normal (suffix_of_isDocumentName h) hslash
  unfold isDocumentName at h
  split at h
  · next found heq => exact hcomponents found heq
  · simp at h

/-- Document names end in `.md` and hold neither slashes nor backslashes. -/
theorem isDocumentName_iff {name : String} :
    isDocumentName name = true ↔ '/' ∉ name.toList ∧ '\\' ∉ name.toList ∧ markdownSuffix <:+ name.toList := by
  have hslash : Path.slash ∈ utf8 name ↔ '/' ∈ name.toList := asciiByte_mem_utf8_iff (c := '/') (by decide)
  constructor
  · intro h
    refine ⟨fun hmem => (plain_of_isDocumentName h).noSlash (hslash.mpr hmem), ?_⟩
    simp only [isDocumentName, Bool.and_eq_true, Bool.not_eq_true', List.contains_eq_mem, decide_eq_false_iff_not,
      List.isSuffixOf_iff_suffix] at h
    exact ⟨h.1.2, h.2⟩
  · rintro ⟨hnone, hback, hsuffix⟩
    have hplain : Path.Plain (utf8 name) := plain_of_suffix (suffix_utf8 hsuffix) (mt hslash.mp hnone)
    rw [isDocumentName, Path.components_of_plain hplain]
    simp [hback, hsuffix]

/-! ### The list of documents -/

/-- The name in the list for an entry, if it has one. -/
def listed? (item : Name × Entry) : Option String :=
  match item.2 with
  | .file _ => if isDocumentName (lossy item.1) then some (lossy item.1) else none
  | _ => none

theorem listed?_glimpse (item : Name × Entry) : listed? (item.1, glimpse item.1 item.2) = listed? item := by
  obtain ⟨name, entry⟩ := item
  cases entry with
  | dir => rfl
  | link target => rfl
  | file content =>
      unfold glimpse
      split_ifs <;> rfl

theorem SameByName.perm {items others : List (Name × Entry)} (h : SameByName items others) : items.Perm others := by
  rw [List.perm_iff_count]
  intro item
  have hcount : ∀ list : List (Name × Entry),
      (list.filter fun found => found.1 = item.1).count item = list.count item := by
    intro list
    exact List.count_filter (p := fun found : Name × Entry => found.1 = item.1) (decide_eq_true rfl)
  calc items.count item = (items.filter fun found => found.1 = item.1).count item := (hcount items).symm
    _ = (others.filter fun found => found.1 = item.1).count item := by rw [h item.1]
    _ = others.count item := hcount others

theorem perm_listed (h : SameByName (glimpses tree loc) (glimpses other otherLoc)) :
    ((tree.children loc).filterMap listed?).Perm ((other.children otherLoc).filterMap listed?) := by
  have hlisted : ∀ (tree : FileTree) (loc : Location),
      (glimpses tree loc).filterMap listed? = (tree.children loc).filterMap listed? := by
    intro tree loc
    rw [glimpses, List.filterMap_map]
    exact List.filterMap_congr fun item _ => listed?_glimpse item
  rw [← hlisted tree loc, ← hlisted other otherLoc]
  exact h.perm.filterMap listed?

theorem documentNames_eq (hloc : tree.locate dir = .ok loc) (hdir : tree.get? loc = some .dir) :
    documentNames tree dir =
      (.ok (((tree.children loc).filterMap listed?).mergeSort fun a b => bytesLe (utf8 a) (utf8 b)), []) := by
  have hread : tree.readDir dir = .ok (tree.children loc) := by
    rw [readDir, hloc]
    exact if_pos hdir
  rw [documentNames, hread]
  rfl

/-! ### The page of a document -/

theorem head?_glimpses (tree : FileTree) (loc : Location) (name : Name) :
    ((glimpses tree loc).filter fun item => item.1 = name).head? =
      (tree.get? (loc ++ [name])).map fun entry => (name, glimpse name entry) := by
  rw [get?_append_singleton, glimpses]
  induction tree.children loc with
  | nil => rfl
  | cons item items ih =>
      rw [List.map_cons, List.filter_cons, List.lookup_cons]
      by_cases heq : item.1 = name
      · simp [heq]
      · simp [heq, beq_eq_false_iff_ne.mpr (Ne.symm heq), ih]

/-- Of a Markdown file everything may be told. -/
theorem glimpse_of_suffix {name : Name} (hsuffix : utf8 ".md" <:+ name) (entry : Entry) :
    glimpse name entry = entry := by
  cases entry with
  | file content => exact if_pos hsuffix
  | dir => rfl
  | link target => rfl

/-- A document's text is read alike where the entries are alike. -/
theorem readText_eq {name : Name} (hloc : tree.locate dir = .ok loc) (hdir : tree.get? loc = some .dir)
    (hclear : ∀ loc, tree.Clear loc) (hotherLoc : other.locate dir = .ok otherLoc)
    (hotherDir : other.get? otherLoc = some .dir) (hotherClear : ∀ loc, other.Clear loc) (hname : Path.Plain name)
    (hsuffix : utf8 ".md" <:+ name) (h : SameByName (glimpses tree loc) (glimpses other otherLoc)) :
    tree.readText (dir.join name) = other.readText (dir.join name) := by
  have hentry : tree.get? (loc ++ [name]) = other.get? (otherLoc ++ [name]) := by
    have hseen := congrArg List.head? (h name)
    rw [head?_glimpses, head?_glimpses] at hseen
    simp only [glimpse_of_suffix hsuffix] at hseen
    exact Option.map_injective (Prod.mk_right_injective name) hseen
  rw [readText, readText, readFile_join hloc hdir (fun target => (hclear _).not_link target) hname,
    readFile_join hotherLoc hotherDir (fun target => (hotherClear _).not_link target) hname, hentry]

/-! ### The viewer -/

theorem viewer_eq (hlist : documentNames tree dir = documentNames other dir)
    (hpage : page tree dir = page other dir) : viewer tree dir = viewer other dir := by
  have hlists : list tree dir = list other dir := by
    unfold list
    rw [hlist]
  have hviews : view tree dir = view other dir := by
    unfold view
    rw [hpage]
  rw [viewer, viewer, endpoints, endpoints, hlists, hviews]

/-- Trees without links that agree on the entries directly in a directory give the same answer to every request,
and leave the same log. -/
theorem viewer_confined (hfree : tree.LinkFree) (hotherFree : other.LinkFree) (hdir : tree.isDir dir = true)
    (hotherDir : other.isDir dir = true) (h : SameEntries dir tree other) (request : Request) :
    viewer tree dir request = viewer other dir request := by
  obtain ⟨loc, hloc, hget⟩ := isDir_iff.mp hdir
  obtain ⟨otherLoc, hotherLoc, hotherGet⟩ := isDir_iff.mp hotherDir
  have hentries := h loc otherLoc hloc hotherLoc
  have hlist : documentNames tree dir = documentNames other dir := by
    rw [documentNames_eq hloc hget, documentNames_eq hotherLoc hotherGet, mergeSort_texts_eq (perm_listed hentries)]
  have hpage : page tree dir = page other dir := by
    funext name
    unfold page
    cases hname : name.filter isDocumentName with
    | none => rfl
    | some file =>
        have hdocument : isDocumentName file = true := (Option.filter_eq_some_iff.mp hname).2
        have hread := readText_eq hloc hget hfree.clear hotherLoc hotherGet hotherFree.clear
          (plain_of_isDocumentName hdocument) (suffix_of_isDocumentName hdocument) hentries
        simp only [hread]
  rw [viewer_eq hlist hpage]

/-- A directory with a document, a file that is no document and a directory below; what the last two hold is a
secret, and so is a file outside. -/
def secretive (secret : Bytes) : FileTree where
  entries :=
    [([utf8 "docs"], .dir), ([utf8 "docs", utf8 "a.md"], .file (utf8 "# A")),
     ([utf8 "docs", utf8 "b.txt"], .file secret), ([utf8 "docs", utf8 "c"], .dir),
     ([utf8 "docs", utf8 "c", utf8 "d.md"], .file secret), ([utf8 "e.md"], .file secret)]
  cwd := []

theorem secretive_linkFree (secret : Bytes) : (secretive secret).LinkFree := by
  intro item hitem target
  fin_cases hitem <;> simp

theorem secretive_locate (secret : Bytes) : (secretive secret).locate (utf8 "docs") = .ok [utf8 "docs"] := by
  cbv

theorem secretive_isDir (secret : Bytes) : (secretive secret).isDir (utf8 "docs") = true :=
  isDir_iff.mpr ⟨_, secretive_locate secret, by cbv⟩

theorem secretive_sameEntries (secret secret' : Bytes) :
    SameEntries (utf8 "docs") (secretive secret) (secretive secret') := by
  intro loc otherLoc hloc hotherLoc
  cases (secretive_locate secret).symm.trans hloc
  cases (secretive_locate secret').symm.trans hotherLoc
  have hglimpses : ∀ secret, glimpses (secretive secret) [utf8 "docs"] =
      [(utf8 "a.md", .file (utf8 "# A")), (utf8 "b.txt", .file []), (utf8 "c", .dir)] := by
    intro secret
    cbv
  intro name
  rw [hglimpses, hglimpses]

/-- A request for a file outside. -/
def outward : Request where
  method := "GET"
  uri := ⟨none, [], "/view".toList, some "file=..%2Fe.md".toList⟩
  headers := []
  body := []

/-- A request that tries to leave the directory is answered alike, whatever stands outside. -/
theorem viewer_confined_secretive :
    (secretive [1]).LinkFree ∧ (secretive [2]).LinkFree ∧ (secretive [1]).isDir (utf8 "docs") = true ∧
      (secretive [2]).isDir (utf8 "docs") = true ∧ SameEntries (utf8 "docs") (secretive [1]) (secretive [2]) ∧
      viewer (secretive [1]) (utf8 "docs") outward = viewer (secretive [2]) (utf8 "docs") outward :=
  ⟨secretive_linkFree _, secretive_linkFree _, secretive_isDir _, secretive_isDir _, secretive_sameEntries _ _,
    viewer_confined (secretive_linkFree _) (secretive_linkFree _) (secretive_isDir _) (secretive_isDir _)
      (secretive_sameEntries _ _) _⟩

end RouteBook.Viewer
