import RouteBook.Proofs.Generator.Exactness
import RouteBook.Proofs.Viewer.Generated
import RouteBook.Proofs.Viewer.Outline

/-! The list of documents, read back from its page. A page is taken apart into tags and texts, and every list item in it
into the target and the text of its link. No file name, whatever signs it is made of, ends a text, an attribute or an
item, so the items are those of the files that are listed, each of which asks for its file and reads as its name; and
these are the documents directly in the directory, in byte order. -/

namespace RouteBook.Viewer

open FileTree
open Generator (Reordered)
open Http (Request Uri)
open Markdown.Html (Avoids)

variable {tree other : FileTree} {dir : Path} {loc : Location} {request : Request} {file name : String}

/-! ### Tags and texts -/

/-- A piece of a page. -/
inductive Token
  /-- What stands between the signs that open and close a tag. -/
  | tag (inner : List Char)
  | text (chars : List Char)
  deriving DecidableEq

/-- Where a scan stands: in a text, or in a tag and there between quotes of some kind or outside of them. -/
inductive Mode
  | text
  | tag (quote : Option Char)

/-- The quotes that are open behind a sign of a tag. -/
def nextQuote (quote : Option Char) (c : Char) : Option Char :=
  match quote with
  | none => if c = '"' || c = '\x27' then some c else none
  | some q => if c = q then none else some q

/-- A text as a piece, unless it is empty. -/
def textToken (text : List Char) : List Token := if text = [] then [] else [.text text]

/-- The pieces of a page, of which `seen` is the part of the first that was read already, backwards. The sign that closes
a tag does not do so between quotes; a tag that is never closed is none. -/
def scan : Mode → List Char → List Char → List Token
  | .text, seen, [] => textToken seen.reverse
  | .text, seen, c :: rest =>
    if c = '<' then textToken seen.reverse ++ scan (.tag none) [] rest else scan .text (c :: seen) rest
  | .tag _, _, [] => []
  | .tag quote, seen, c :: rest =>
    if c = '>' ∧ quote = none then .tag seen.reverse :: scan .text [] rest
    else scan (.tag (nextQuote quote c)) (c :: seen) rest

variable {text inner : List Char} {pieces more : List Token}

theorem scan_text (h : '<' ∉ text) (seen rest : List Char) :
    scan .text seen (text ++ rest) = scan .text (text.reverse ++ seen) rest := by
  induction text generalizing seen with
  | nil => rfl
  | cons c text ih =>
      rw [List.mem_cons, not_or] at h
      rw [List.cons_append, scan, if_neg (Ne.symm h.1), ih h.2, List.reverse_cons, List.append_assoc, List.singleton_append]

theorem scan_tag {quote : Option Char} (h : '>' ∉ inner) (hquote : inner.foldl nextQuote quote = none)
    (seen rest : List Char) :
    scan (.tag quote) seen (inner ++ '>' :: rest) = .tag (seen.reverse ++ inner) :: scan .text [] rest := by
  induction inner generalizing quote seen with
  | nil =>
      obtain rfl : quote = none := hquote
      rw [List.nil_append, scan, if_pos ⟨rfl, rfl⟩, List.append_nil]
  | cons c inner ih =>
      rw [List.mem_cons, not_or] at h
      rw [List.cons_append, scan, if_neg fun hclose => h.1 hclose.1.symm, ih h.2 hquote, List.reverse_cons,
        List.append_assoc, List.singleton_append]

/-- The inside of a tag that ends where it should: all quotes are closed, and the sign that closes tags is not in it. -/
structure Closed (inner : List Char) : Prop where
  single : '>' ∉ inner
  quotes : inner.foldl nextQuote none = none

instance (inner : List Char) : Decidable (Closed inner) :=
  decidable_of_iff ('>' ∉ inner ∧ inner.foldl nextQuote none = none) ⟨fun h => ⟨h.1, h.2⟩, fun h => ⟨h.single, h.quotes⟩⟩

/-- A text is taken apart into some pieces, whatever follows it. -/
def Scans (pieces : List Token) (text : List Char) : Prop :=
  ∀ rest, scan .text [] (text ++ rest) = pieces ++ scan .text [] rest

theorem Scans.append {back : List Char} (h : Scans pieces text) (hback : Scans more back) :
    Scans (pieces ++ more) (text ++ back) := by
  intro rest
  rw [List.append_assoc, h, hback, List.append_assoc]

theorem Scans.flatMap {α : Type} {items : List α} {tokens : α → List Token} {texts : α → List Char}
    (h : ∀ item ∈ items, Scans (tokens item) (texts item)) : Scans (items.flatMap tokens) (items.flatMap texts) := by
  induction items with
  | nil => exact fun _ => rfl
  | cons item items ih =>
      exact (h item List.mem_cons_self).append (ih fun other hother => h other (List.mem_cons_of_mem item hother))

/-- A text with a tag behind it. -/
abbrev Chunk := List Char × List Char

namespace Chunk

def chars (chunk : Chunk) : List Char := chunk.1 ++ '<' :: chunk.2 ++ ['>']

def tokens (chunk : Chunk) : List Token := textToken chunk.1 ++ [.tag chunk.2]

theorem scans {chunk : Chunk} (htext : '<' ∉ chunk.1) (htag : Closed chunk.2) : Scans chunk.tokens chunk.chars := by
  intro rest
  rw [chars, tokens, List.append_assoc, List.append_assoc, scan_text htext, List.append_nil, List.cons_append, scan,
    if_pos rfl, List.reverse_reverse, List.singleton_append, scan_tag htag.single htag.quotes, List.append_assoc]
  rfl

theorem scans_flatMap {chunks : List Chunk} (h : ∀ chunk ∈ chunks, '<' ∉ chunk.1 ∧ Closed chunk.2) :
    Scans (chunks.flatMap tokens) (chunks.flatMap chars) :=
  .flatMap fun chunk hchunk => scans (h chunk hchunk).1 (h chunk hchunk).2

end Chunk

/-! ### List items -/

/-- The link of a list item: its target and its text, both as they are written. -/
structure Item where
  target : List Char
  text : List Char
  deriving DecidableEq

/-- The element that a tag opens. -/
def element (inner : List Char) : List Char := (inner.takeWhile Char.isAlphanum).map Char.toLower

/-- The tag that opens a link, up to the target. -/
def linkStart : List Char := "a href=\"".toList

/-- The target in the tag that opens a link, if the tag has no other attribute. -/
def linkTarget? (inner : List Char) : Option (List Char) :=
  (Text.after? linkStart inner).bind fun rest =>
    if rest.dropWhile (· ≠ '"') = ['"'] then some (rest.takeWhile (· ≠ '"')) else none

/-- The item at the front of some pieces: a link and nothing else. -/
def itemAt? : List Token → Option Item
  | .tag link :: .text text :: .tag linkEnd :: .tag itemEnd :: _ =>
    if linkEnd = "/a".toList ∧ itemEnd = "/li".toList then (linkTarget? link).map (⟨·, text⟩) else none
  | _ => none

/-- The piece opens a list item, however that is written. -/
def Token.opensItem : Token → Bool
  | .tag inner => element inner = "li".toList
  | .text _ => false

/-- All items among some pieces, if each is a link and nothing else. -/
def itemsOf : List Token → Option (List Item)
  | [] => some []
  | piece :: rest =>
    if piece.opensItem then do
      let item ← itemAt? rest
      let items ← itemsOf rest
      some (item :: items)
    else itemsOf rest

/-- The items of a page. -/
def pageItems (page : String) : Option (List Item) := itemsOf (scan .text [] page.toList)

/-! ### References -/

theorem unescapeHtml_nil : unescapeHtml [] = [] := by
  rw [unescapeHtml, Text.chunks]

theorem unescapeHtml_of_not_mem (h : '&' ∉ text) : unescapeHtml text = text := by
  induction text with
  | nil => exact unescapeHtml_nil
  | cons c text ih =>
      rw [List.mem_cons, not_or] at h
      rw [unescapeHtml_cons (if_neg (Ne.symm h.1)) le_rfl, ih h.2]

theorem unescapeHtml_htmlReference (c : Char) (rest : List Char) :
    unescapeHtml (((Text.htmlReference? c).getD c.toString).toList ++ rest) = c :: unescapeHtml rest := by
  unfold Text.htmlReference?
  split_ifs with hamp hlt hgt hquote hapostrophe
  · rw [hamp]
    exact unescapeHtml_reference (by decide) rest
  · rw [hlt]
    exact unescapeHtml_reference (by decide) rest
  · rw [hgt]
    exact unescapeHtml_reference (by decide) rest
  · rw [hquote]
    exact unescapeHtml_reference (by decide) rest
  · rw [hapostrophe]
    exact unescapeHtml_reference (by decide) rest
  · rw [Option.getD_none, Char.toString_eq_singleton, String.toList_singleton]
    exact unescapeHtml_cons (if_neg hamp) le_rfl

/-- An escaped text is read back as it was. -/
theorem unescapeHtml_escapeHtml (text : String) : unescapeHtml (Text.escapeHtml text).toList = text.toList := by
  rw [Text.escapeHtml, String.toList_join, List.flatMap_map]
  induction text.toList with
  | nil => exact unescapeHtml_nil
  | cons c rest ih => rw [List.flatMap_cons, unescapeHtml_htmlReference, ih]

/-! ### The items of the list -/

/-- The item of a file. -/
def itemOf (file : String) : Item := ⟨(documentLink file).toList, (Text.escapeHtml file).toList⟩

/-- An encoded link ends no attribute, no tag and no text, and holds no references. -/
theorem documentLink_avoids (file : String) : Avoids ['"', '&', '>'] (documentLink file).toList := by
  have hfixed : Avoids ['"', '&', '>'] "/view?file=".toList := by decide
  rw [documentLink, String.toList_append]
  refine hfixed.append fun c hc hmark => ?_
  have hencoded := Text.isEncoded_of_mem_percentEncode hc
  fin_cases hmark <;> exact absurd hencoded (by decide)

theorem foldl_nextQuote {q : Char} {value : List Char} (h : q ∉ value) : value.foldl nextQuote (some q) = some q := by
  induction value with
  | nil => rfl
  | cons c value ih =>
      rw [List.mem_cons, not_or] at h
      rw [List.foldl_cons, nextQuote, if_neg (Ne.symm h.1), ih h.2]

/-- The tag that opens a link to a target. -/
def linkTag (target : List Char) : List Char := linkStart ++ (target ++ ['"'])

theorem closed_linkTag {target : List Char} (h : Avoids ['"', '&', '>'] target) : Closed (linkTag target) := by
  have hquote : '"' ∉ target := fun hmem => h '"' hmem (by decide)
  have hclose : '>' ∉ target := fun hmem => h '>' hmem (by decide)
  have hstart : '>' ∉ linkStart := by decide
  have hopen : linkStart.foldl nextQuote none = some '"' := by decide
  refine ⟨?_, ?_⟩
  · rw [linkTag, List.mem_append, List.mem_append, not_or, not_or]
    exact ⟨hstart, hclose, by decide⟩
  · rw [linkTag, List.foldl_append, List.foldl_append, hopen, foldl_nextQuote hquote]
    rfl

theorem linkTarget?_linkTag {target : List Char} (h : '"' ∉ target) : linkTarget? (linkTag target) = some target := by
  have hkeep : ∀ c ∈ target, decide (c ≠ '"') = true := fun c hc => decide_eq_true fun heq => h (heq ▸ hc)
  rw [linkTarget?, linkTag, Text.after?_eq_some_iff.mpr rfl, Option.bind_some, List.dropWhile_append_of_pos hkeep,
    List.takeWhile_append_of_pos hkeep]
  simp

/-- The texts and tags of an item. -/
def itemChunks (file : String) : List Chunk :=
  [([], "li".toList), ([], linkTag (documentLink file).toList), ((Text.escapeHtml file).toList, "/a".toList),
   ([], "/li".toList)]

theorem toList_indexItem (file : String) : (indexItem file).toList = (itemChunks file).flatMap Chunk.chars := by
  have hitem : "<li>".toList = '<' :: "li".toList ++ ['>'] := by decide
  have hlink : "<a href=\"".toList = '<' :: linkStart := by decide
  have hquote : "\">".toList = ['"', '>'] := by decide
  have hlinkEnd : "</a>".toList = '<' :: "/a".toList ++ ['>'] := by decide
  have hitemEnd : "</li>".toList = '<' :: "/li".toList ++ ['>'] := by decide
  rw [indexItem_eq, anchor]
  simp only [String.toList_append, hitem, hlink, hquote, hlinkEnd, hitemEnd, itemChunks, List.flatMap_cons,
    List.flatMap_nil, Chunk.chars, linkTag, List.append_assoc, List.cons_append, List.nil_append]

theorem scans_indexItem (file : String) : Scans ((itemChunks file).flatMap Chunk.tokens) (indexItem file).toList := by
  have hlink : Closed (linkTag (documentLink file).toList) := closed_linkTag (documentLink_avoids file)
  have hinert : '<' ∉ (Text.escapeHtml file).toList := fun hmem => escapeHtml_inert file '<' hmem (by decide)
  rw [toList_indexItem]
  apply Chunk.scans_flatMap
  simp only [itemChunks, List.forall_mem_cons, hlink, hinert]
  decide

/-- The texts and tags in front of the first item. -/
def headChunks : List Chunk :=
  [([], "!DOCTYPE html".toList), (['\n'], "html".toList), (['\n'], "head".toList), ([], "meta charset=\"utf-8\"".toList),
   ([], "title".toList), ("AutoDoc Viewer".toList, "/title".toList), ([], "/head".toList), (['\n'], "body".toList),
   (['\n'], "h1".toList), ("Available Docs".toList, "/h1".toList), (['\n'], "ul".toList)]

theorem scans_listHead : Scans (headChunks.flatMap Chunk.tokens) listHead.toList := by
  have hhead : listHead.toList = headChunks.flatMap Chunk.chars := by decide +kernel
  rw [hhead]
  exact Chunk.scans_flatMap (by decide)

/-- The page of a list of files in pieces. -/
theorem scan_indexPage (files : List String) :
    scan .text [] (indexPage files).toList = headChunks.flatMap Chunk.tokens ++
      (files.flatMap (fun file => (itemChunks file).flatMap Chunk.tokens) ++ scan .text [] listFoot.toList) := by
  rw [toList_indexPage, List.append_assoc, scans_listHead, Scans.flatMap fun file _ => scans_indexItem file]

/-! ### Reading the list -/

theorem itemsOf_append {front : List Token} (h : ∀ piece ∈ front, piece.opensItem = false) (rest : List Token) :
    itemsOf (front ++ rest) = itemsOf rest := by
  induction front with
  | nil => rfl
  | cons piece front ih =>
      rw [List.cons_append, itemsOf, h piece List.mem_cons_self, if_neg (by simp),
        ih fun other hother => h other (List.mem_cons_of_mem piece hother)]

theorem itemsOf_itemChunks (h : file ≠ "") (rest : List Token) :
    itemsOf ((itemChunks file).flatMap Chunk.tokens ++ rest) = (itemsOf rest).map (itemOf file :: ·) := by
  have htext : (Text.escapeHtml file).toList ≠ [] := by
    intro hnil
    have hread := unescapeHtml_escapeHtml file
    rw [hnil, unescapeHtml_nil] at hread
    exact h (String.toList_injective hread.symm)
  have htokens : (itemChunks file).flatMap Chunk.tokens =
      .tag "li".toList :: [.tag (linkTag (documentLink file).toList), .text (Text.escapeHtml file).toList,
        .tag "/a".toList, .tag "/li".toList] := by
    simp [itemChunks, Chunk.tokens, textToken, htext]
  have hitem : (Token.tag "li".toList).opensItem = true := by decide
  have hlink : (Token.tag (linkTag (documentLink file).toList)).opensItem = false := by
    have helement : element (linkTag (documentLink file).toList) = "a".toList := rfl
    rw [Token.opensItem, helement]
    decide
  have htarget := linkTarget?_linkTag fun hmem => documentLink_avoids file '"' hmem (by decide)
  rw [htokens, List.cons_append, itemsOf, if_pos hitem, itemsOf_append]
  · simp only [List.cons_append, itemAt?, htarget]
    cases itemsOf rest <;> rfl
  · simp only [List.forall_mem_cons]
    exact ⟨hlink, rfl, by decide, by decide, by simp⟩

theorem pageItems_indexPage {files : List String} (h : ∀ file ∈ files, file ≠ "") :
    pageItems (indexPage files) = some (files.map itemOf) := by
  rw [pageItems, scan_indexPage, itemsOf_append (by decide)]
  induction files with
  | nil => decide +kernel
  | cons file files ih =>
      rw [List.flatMap_cons, List.append_assoc, itemsOf_itemChunks (h file List.mem_cons_self),
        ih fun other hother => h other (List.mem_cons_of_mem file hother)]
      rfl

/-- The address that the link of an item leads to. -/
def Item.address (item : Item) : String := String.ofList (unescapeHtml item.target)

/-- An item stands for a file name: it reads as that name, and its link asks the viewer for it. -/
structure Item.Shows (item : Item) (name : String) : Prop where
  text : unescapeHtml item.text = name.toList
  link : ∃ uri, Uri.parse item.address = .ok uri
  asks : ∀ request, Gets request item.address → request.uri.pathText = "/view" ∧ fileNames request = [name]

theorem address_itemOf (file : String) : (itemOf file).address = documentLink file := by
  rw [Item.address, itemOf, unescapeHtml_of_not_mem fun hmem => documentLink_avoids file '&' hmem (by decide),
    String.ofList_toList]

theorem shows_itemOf (h : (utf8 file).length ≤ nameLimit) : (itemOf file).Shows file where
  text := unescapeHtml_escapeHtml file
  link := ⟨_, address_itemOf file ▸ parse_documentLink h⟩
  asks _ hrequest := Gets.link (address_itemOf file ▸ hrequest) h

theorem rightUnique_shows : Relator.RightUnique Item.Shows :=
  fun _ _ _ h hother => String.toList_injective (h.text.symm.trans hother.text)

/-- The names that the items of a page stand for. -/
def ReadAs (page : String) (names : List String) : Prop :=
  ∃ items, pageItems page = some items ∧ List.Forall₂ Item.Shows items names

/-- A list of file names is read from its page, and nothing else is. -/
theorem readAs_indexPage_iff {files names : List String}
    (h : ∀ file ∈ files, file ≠ "" ∧ (utf8 file).length ≤ nameLimit) : ReadAs (indexPage files) names ↔ names = files := by
  have hitems := pageItems_indexPage fun file hfile => (h file hfile).1
  have hshows : List.Forall₂ Item.Shows (files.map itemOf) files := by
    rw [List.forall₂_map_left_iff, List.forall₂_same]
    exact fun file hfile => shows_itemOf (h file hfile).2
  constructor
  · rintro ⟨items, hread, hnames⟩
    rw [hitems] at hread
    cases hread
    exact rightUnique_shows.forall₂ hnames hshows
  · rintro rfl
    exact ⟨_, hitems, hshows⟩

/-! ### The documents of a directory -/

/-- The names directly in a directory are texts. -/
def Textual (tree : FileTree) (loc : Location) : Prop :=
  ∀ name entry, tree.get? (loc ++ [name]) = some entry → ∃ text, name = utf8 text

theorem textual_of_names {texts : List String} (h : (tree.children loc).map Prod.fst = texts.map utf8) :
    Textual tree loc := by
  intro name entry hentry
  have hmem := Generator.mem_names_iff.mpr ⟨entry, hentry⟩
  rw [h, List.mem_map] at hmem
  obtain ⟨text, -, rfl⟩ := hmem
  exact ⟨text, rfl⟩

/-- A file under a name that the viewer takes for that of a document. -/
structure Viewable (tree : FileTree) (loc : Location) (name : String) : Prop where
  file : ∃ content, tree.get? (loc ++ [utf8 name]) = some (.file content)
  noBackslash : '\\' ∉ name.toList
  suffix : ".md".toList <:+ name.toList

theorem isDocumentName_of_viewable (hproper : tree.Proper) (h : Viewable tree loc name) : isDocumentName name = true := by
  obtain ⟨content, hentry⟩ := h.file
  have hslash : '/' ∉ name.toList := by
    rw [← asciiByte_mem_utf8_iff (by decide)]
    exact (hproper.stands_of_get? hentry).2.plain.noSlash
  exact isDocumentName_iff.mpr ⟨hslash, h.noBackslash, h.suffix⟩

/-- A name is listed for the entry that has it. -/
theorem listed?_eq_some_iff {text : String} {entry : Entry} :
    listed? (utf8 text, entry) = some name ↔ text = name ∧ isDocumentName name = true ∧ ∃ content, entry = .file content := by
  cases entry with
  | dir | link => simp [listed?]
  | file content =>
      simp only [listed?, lossy_utf8, Option.ite_none_right_eq_some, Option.some.injEq]
      constructor
      · rintro ⟨hdocument, rfl⟩
        exact ⟨rfl, hdocument, content, rfl⟩
      · rintro ⟨rfl, hdocument, -⟩
        exact ⟨hdocument, rfl⟩

/-- The names in the list are those of the files that can be viewed. -/
theorem mem_documentList_iff_viewable (hproper : tree.Proper) (htext : Textual tree loc) :
    name ∈ documentList tree loc ↔ Viewable tree loc name := by
  rw [mem_documentList_iff]
  constructor
  · rintro ⟨⟨found, entry⟩, hitem, hlisted⟩
    rw [Generator.mem_children_iff hproper] at hitem
    obtain ⟨text, rfl⟩ := htext found entry hitem
    obtain ⟨rfl, hdocument, content, rfl⟩ := listed?_eq_some_iff.mp hlisted
    obtain ⟨-, hback, hsuffix⟩ := isDocumentName_iff.mp hdocument
    exact ⟨⟨content, hitem⟩, hback, hsuffix⟩
  · intro h
    obtain ⟨content, hentry⟩ := h.file
    refine ⟨(utf8 name, .file content), (Generator.mem_children_iff hproper).mpr hentry, ?_⟩
    exact listed?_eq_some_iff.mpr ⟨rfl, isDocumentName_of_viewable hproper h, content, rfl⟩

/-- The list is sorted strictly, since no name occurs twice. -/
theorem pairwise_documentList (hproper : tree.Proper) (htext : Textual tree loc) :
    (documentList tree loc).Pairwise fun a b => utf8 a < utf8 b := by
  have hnodup : ((tree.children loc).filterMap listed?).Nodup := by
    have hnames := List.pairwise_map.mp (Generator.nodup_names hproper loc)
    rw [List.Nodup, List.pairwise_filterMap]
    refine hnames.imp_of_mem ?_
    rintro ⟨a, entryA⟩ ⟨b, entryB⟩ ha hb hne nameA hnameA nameB hnameB rfl
    obtain ⟨textA, rfl⟩ := htext a entryA ((Generator.mem_children_iff hproper).mp ha)
    obtain ⟨textB, rfl⟩ := htext b entryB ((Generator.mem_children_iff hproper).mp hb)
    rw [(listed?_eq_some_iff.mp hnameA).1, (listed?_eq_some_iff.mp hnameB).1] at hne
    exact hne rfl
  have hsorted : (documentList tree loc).Nodup := (List.mergeSort_perm _ _).nodup_iff.mpr hnodup
  exact ((pairwise_mergeSort_texts _).and hsorted).imp fun {a b} h =>
    lt_of_bytesLe h.1 fun heq => h.2 (utf8_injective heq)

theorem documentList_reordered (h : Reordered tree other) (loc : Location) :
    documentList other loc = documentList tree loc :=
  mergeSort_texts_eq ((h.entries.filterMap _).filterMap listed?)

/-- A name in the list is the name of an entry, so it is not empty and not too long for a link. -/
theorem listable_of_viewable (hproper : tree.Proper) (h : Viewable tree loc name) :
    name ≠ "" ∧ (utf8 name).length ≤ nameLimit := by
  obtain ⟨content, hentry⟩ := h.file
  refine ⟨?_, (hproper.stands_of_get? hentry).2.short⟩
  rintro rfl
  exact absurd h.suffix (by decide)

theorem readAs_documentList_iff (hproper : tree.Proper) (htext : Textual tree loc) {found : List String} :
    ReadAs (indexPage (documentList tree loc)) found ↔ found = documentList tree loc :=
  readAs_indexPage_iff fun _ hname =>
    listable_of_viewable hproper ((mem_documentList_iff_viewable hproper htext).mp hname)

/-- The list at the root shows exactly the documents directly in the directory: whatever order its entries are reported
in, one list of names can be read from the page, and it holds the names of these files in strictly increasing byte
order. -/
theorem index_exact (hproper : tree.Proper) (hloc : tree.locate dir = .ok loc) (hdir : tree.get? loc = some .dir)
    (htext : Textual tree loc) (hmethod : request.method = "GET") (hpath : request.uri.pathText = "/") :
    ∃ page names, (∀ other, Reordered tree other → Answers (viewer other dir) request 200 page) ∧
      (∀ found, ReadAs page found ↔ found = names) ∧ names.Pairwise (fun a b => utf8 a < utf8 b) ∧
      ∀ name, name ∈ names ↔ Viewable tree loc name := by
  refine ⟨indexPage (documentList tree loc), documentList tree loc, fun other h => ?_, fun found => ?_, ?_, fun name => ?_⟩
  · rw [← documentList_reordered h]
    exact answers_root (h.locate hproper hloc) ((h.get? hproper loc).trans hdir) hmethod hpath
  · exact readAs_documentList_iff hproper htext
  · exact pairwise_documentList hproper htext
  · exact mem_documentList_iff_viewable hproper htext

/-- A directory with two documents, one under a name full of signs, and with entries that are none: a file with a
backslash in its name, one with another ending, a directory, a link, and a file in the directory below. -/
def shelf : FileTree where
  entries :=
    [([utf8 "docs"], .dir), ([utf8 "docs", utf8 "x y.md"], .file (utf8 "# X")),
     ([utf8 "docs", utf8 "\"><li>&'.md"], .file []), ([utf8 "docs", utf8 "b\\c.md"], .file []),
     ([utf8 "docs", utf8 "n.txt"], .file []), ([utf8 "docs", utf8 "d.md"], .dir),
     ([utf8 "docs", utf8 "d.md", utf8 "e.md"], .file []), ([utf8 "docs", utf8 "l.md"], .link (utf8 "x y.md"))]
  cwd := []

/-- A request for the list. -/
def home : Request where
  method := "GET"
  uri := ⟨none, [], "/".toList, none⟩
  headers := []
  body := []

theorem shelf_proper : shelf.Proper := by decide

theorem shelf_textual : Textual shelf [utf8 "docs"] := by
  have hnames : (shelf.children [utf8 "docs"]).map Prod.fst =
      ["x y.md", "\"><li>&'.md", "b\\c.md", "n.txt", "d.md", "l.md"].map utf8 := by cbv
  exact textual_of_names hnames

/-- The two documents are listed and nothing else, in whatever order the entries are reported. -/
theorem index_exact_shelf : shelf.Proper ∧ shelf.locate (utf8 "docs") = .ok [utf8 "docs"] ∧
    shelf.get? [utf8 "docs"] = some .dir ∧ Textual shelf [utf8 "docs"] ∧ home.method = "GET" ∧ home.uri.pathText = "/" ∧
    ∃ page names, Answers (viewer shelf (utf8 "docs")) home 200 page ∧
      Answers (viewer ⟨shelf.entries.reverse, []⟩ (utf8 "docs")) home 200 page ∧ ReadAs page names ∧
      "\"><li>&'.md" ∈ names ∧ "x y.md" ∈ names ∧ "b\\c.md" ∉ names ∧ "n.txt" ∉ names ∧ "d.md" ∉ names ∧ "e.md" ∉ names ∧
      "l.md" ∉ names := by
  have hloc : shelf.locate (utf8 "docs") = .ok [utf8 "docs"] := by cbv
  have hpath : home.uri.pathText = "/" := by cbv
  obtain ⟨page, names, hanswers, hread, -, hnames⟩ := index_exact shelf_proper hloc rfl shelf_textual rfl hpath
  have hempty : ∀ name entry, shelf.get? [utf8 "docs", utf8 name] = entry → (∀ content, entry ≠ some (.file content)) →
      name ∉ names := by
    rintro name entry rfl hnone hmem
    obtain ⟨content, hfile⟩ := ((hnames name).mp hmem).file
    exact hnone content hfile
  refine ⟨shelf_proper, hloc, rfl, shelf_textual, rfl, hpath, page, names, hanswers shelf ⟨rfl, .refl _⟩,
    hanswers _ ⟨rfl, List.reverse_perm _⟩, (hread names).mpr rfl, ?_, ?_, ?_, ?_, ?_, ?_, ?_⟩
  · exact (hnames _).mpr ⟨⟨_, rfl⟩, by decide, by decide⟩
  · exact (hnames _).mpr ⟨⟨_, rfl⟩, by decide, by decide⟩
  · exact fun hmem => absurd ((hnames _).mp hmem).noBackslash (by decide)
  · exact fun hmem => absurd ((hnames _).mp hmem).suffix (by decide)
  · exact hempty "d.md" (some .dir) rfl (by simp)
  · exact hempty "e.md" none rfl (by simp)
  · exact hempty "l.md" (some (.link (utf8 "x y.md"))) rfl (by simp)

end RouteBook.Viewer
