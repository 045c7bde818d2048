import RouteBook.Proofs.Json.Layout
import RouteBook.Proofs.Markdown.Blocks
import RouteBook.Proofs.Routes.Descriptions
import RouteBook.Routes.Collect

/-! The page of a list of routes, read as Markdown. If the texts of a route hold no line breaks and no line of its
sample closes the fence, its section is read as a heading, three paragraphs and a code block with the whole sample,
whatever the texts are. Descriptions are always one line, and JSON samples never close their fence. -/

namespace RouteBook.Routes

open Markdown (Unbroken Line Block lines unbroken_append)
open Markdown.Block (ReadAs endsFence)
open OpenApi (Document Operation PathItem)

/-! ### Descriptions -/

/-- A description is one line. -/
theorem unbroken_describe (summary description : Option String) : Unbroken (describe summary description).toList := by
  have hspaces := (tidy_describe summary description).spaces
  exact ⟨fun hmem => absurd (hspaces _ hmem (by decide)) (by decide),
    fun hmem => absurd (hspaces _ hmem (by decide)) (by decide)⟩

/-! ### Routes of a document -/

/-- The texts of a route, its sample apart, hold no line breaks. -/
structure OneLine (route : Route) : Prop where
  method : Unbroken route.method.toList
  path : Unbroken route.path.toList
  function : Unbroken route.function.toList
  description : Unbroken route.description.toList

/-- The paths and the operation ids of a document, as far as they are documented, hold no line breaks. -/
def OneLiners (document : Document) : Prop :=
  ∀ path item, (path, item) ∈ document.paths.entries → Unbroken path.toList ∧
    ∀ method operation, (method, operation) ∈ operations item →
      ∀ name, operation.operationId = some name → Unbroken name.toList

theorem unbroken_method {item : PathItem} {method : String} {operation : Operation}
    (h : (method, operation) ∈ operations item) : Unbroken method.toList := by
  have hmethods : ∀ method ∈ ["GET", "POST", "PUT", "PATCH", "DELETE"], Unbroken method.toList := by decide
  apply hmethods
  simp only [operations, List.mem_filterMap, Option.map_eq_some_iff, Prod.mk.injEq] at h
  obtain ⟨⟨found, candidate⟩, hmem, -, -, rfl, -⟩ := h
  have hfound := List.mem_map_of_mem (f := Prod.fst) hmem
  simpa using hfound

theorem oneLine_of_mem_collect {document : Document} (h : OneLiners document) {route : Route}
    (hroute : route ∈ collect document) : OneLine route := by
  rw [collect, List.mem_mergeSort, inDocumentOrder, List.mem_flatMap] at hroute
  obtain ⟨⟨path, item⟩, hentry, hroute⟩ := hroute
  obtain ⟨⟨method, operation⟩, hoperation, rfl⟩ := List.mem_map.mp hroute
  obtain ⟨hpath, hnames⟩ := h path item hentry
  refine ⟨unbroken_method hoperation, hpath, ?_, unbroken_describe _ _⟩
  cases hname : operation.operationId with
  | none => simpa [ofOperation, hname] using (by decide : Unbroken "unknown".toList)
  | some name => simpa [ofOperation, hname] using hnames method operation hoperation name hname

/-! ### Samples -/

/-- A body that stays in its fence: no line of it closes a fence of three backticks. -/
structure Enclosed (body : List Char) : Prop where
  noReturn : '\r' ∉ body
  within : ∀ piece ∈ Text.pieces '\n' body, endsFence 3 piece = false

theorem enclosed_pretty (value : Json.Value) : Enclosed value.pretty.toList := by
  constructor
  · rw [Json.Value.pretty, String.toList_ofList]
    exact (Json.Value.laid_prettyChars 0 value).noReturn
  · intro piece hpiece
    obtain ⟨n, c, more, rfl, hc⟩ := value.pieces_pretty hpiece
    have hspaces : ∀ d ∈ List.replicate n ' ', ¬Markdown.Cursor.IsSolid d := by
      intro d hd
      rw [List.eq_of_mem_replicate hd]
      decide
    simp only [Json.IsFirst, List.mem_cons, List.not_mem_nil, or_false, not_or] at hc
    exact Markdown.Block.endsFence_eq_false (by decide) hspaces ⟨hc.1, hc.2.1⟩ hc.2.2.2.2 more

/-- The body of a sample that is no text stays in its fence. -/
theorem enclosed_fenced {sample : Sample} (h : ∀ text, sample ≠ .text text) :
    sample.fenced.1 = "json" ∧ Enclosed sample.fenced.2.toList := by
  cases sample with
  | json value => exact ⟨rfl, enclosed_pretty value⟩
  | text body => exact absurd rfl (h body)
  | placeholder => exact ⟨rfl, by decide, by decide⟩

/-! ### Sections -/

/-- The lines of a section up to the body of its sample. -/
def openingLines (route : Route) : List (List Char) :=
  ["## ".toList ++ route.method.toList ++ ' ' :: route.path.toList, [], "**Function**: ".toList ++ route.function.toList,
   [], "**Description**: ".toList ++ route.description.toList, [], "**Sample Response**:".toList, [],
   "\x60\x60\x60".toList ++ route.sample.fenced.1.toList]

/-- The line that closes the fence of a sample. -/
def closingLine : List Char := "\x60\x60\x60".toList

theorem toList_section (route : Route) :
    route.section.toList = ((openingLines route).flatMap fun line => line ++ ['\n']) ++
      (route.sample.fenced.2.toList ++ '\n' :: (closingLine ++ ['\n', '\n'])) := by
  have hfunction : "\n\n**Function**: ".toList = '\n' :: '\n' :: "**Function**: ".toList := by decide
  have hdescription : "\n\n**Description**: ".toList = '\n' :: '\n' :: "**Description**: ".toList := by decide
  have hsample : "\n\n**Sample Response**:\n\n\x60\x60\x60".toList =
      '\n' :: '\n' :: ("**Sample Response**:".toList ++ '\n' :: '\n' :: "\x60\x60\x60".toList) := by decide
  have hclosing : "\n\x60\x60\x60\n\n".toList = '\n' :: (closingLine ++ ['\n', '\n']) := by decide
  have hspace : " ".toList = [' '] := by decide
  have hfeed : "\n".toList = ['\n'] := by decide
  unfold Route.section openingLines
  simp only [String.toList_append, hfunction, hdescription, hsample, hclosing, hspace, hfeed, List.flatMap_cons,
    List.flatMap_nil, List.append_assoc, List.cons_append, List.nil_append, List.append_nil]

/-- The lines of a section. -/
def sectionLines (route : Route) : List Line :=
  ((openingLines route).map fun line => ⟨line, true⟩) ++
    (((Text.pieces '\n' route.sample.fenced.2.toList).map fun piece => ⟨piece, true⟩) ++ [⟨closingLine, true⟩, ⟨[], true⟩])

/-- The blocks of a section. -/
def sectionBlocks (route : Route) : List Block :=
  [.heading 2 (Markdown.atxContent (' ' :: route.method.toList ++ ' ' :: route.path.toList)),
   .paragraph ("**Function**: ".toList ++ route.function.toList),
   .paragraph ("**Description**: ".toList ++ route.description.toList),
   .paragraph "**Sample Response**:".toList,
   .code (some route.sample.fenced.1.toList) (route.sample.fenced.2.toList ++ ['\n'])]

theorem language_cases (sample : Sample) : sample.fenced.1 = "json" ∨ sample.fenced.1 = "text" := by
  cases sample with
  | json value => exact Or.inl rfl
  | text body => exact Or.inr rfl
  | placeholder => exact Or.inl rfl

theorem not_mem_openingLines {route : Route} {c : Char} (hc : c ∈ ['\n', '\r']) (hmethod : c ∉ route.method.toList)
    (hpath : c ∉ route.path.toList) (hfunction : c ∉ route.function.toList)
    (hdescription : c ∉ route.description.toList) : ∀ line ∈ openingLines route, c ∉ line := by
  have hwords : ∀ word ∈ ["## ", " ", "**Function**: ", "**Description**: ", "**Sample Response**:", "\x60\x60\x60"],
      c ∉ word.toList := by fin_cases hc <;> decide
  have hlanguage : c ∉ route.sample.fenced.1.toList := by
    rcases language_cases route.sample with heq | heq <;> rw [heq] <;> fin_cases hc <;> decide
  simp only [List.forall_mem_cons] at hwords
  obtain ⟨hsigns, hspace, hnamed, hdescribed, hsample, hticks, -⟩ := hwords
  simp only [openingLines, List.forall_mem_cons]
  simp only [List.mem_append, List.mem_cons, not_or]
  exact ⟨⟨⟨hsigns, hmethod⟩, List.ne_of_not_mem_cons hspace, hpath⟩, by simp, ⟨hnamed, hfunction⟩, by simp,
    ⟨hdescribed, hdescription⟩, by simp, hsample, by simp, ⟨hticks, hlanguage⟩, by simp⟩

theorem unbroken_openingLines {route : Route} (h : OneLine route) : ∀ line ∈ openingLines route, Unbroken line :=
  fun line hline =>
    ⟨not_mem_openingLines (by decide) h.method.noFeed h.path.noFeed h.function.noFeed h.description.noFeed line hline,
      not_mem_openingLines (by decide) h.method.noReturn h.path.noReturn h.function.noReturn h.description.noReturn line
        hline⟩

theorem lines_section {route : Route} (h : OneLine route) (hbody : '\r' ∉ route.sample.fenced.2.toList) (rest : List Char) :
    lines (route.section.toList ++ rest) = sectionLines route ++ lines rest := by
  have hclosing : lines ((closingLine ++ ['\n', '\n']) ++ rest) = [⟨closingLine, true⟩, ⟨[], true⟩] ++ lines rest :=
    Markdown.lines_flatMap (by decide : ∀ text ∈ [closingLine, []], Unbroken text) rest
  rw [toList_section, List.append_assoc, Markdown.lines_flatMap (unbroken_openingLines h), List.append_assoc,
    List.cons_append, Markdown.lines_pieces hbody, hclosing, sectionLines]
  simp only [List.append_assoc]

/-- Neither language is changed when it is read. -/
theorem unescape_language (sample : Sample) :
    Markdown.unescape ((sample.fenced.1.toList.dropWhile Markdown.isSpace).reverse.dropWhile Markdown.isSpace).reverse =
      sample.fenced.1.toList := by
  rcases language_cases sample with h | h
  · rw [h]
    cbv
  · rw [h]
    cbv

/-- The lines of a section are read as its blocks. -/
theorem readAs_section {route : Route} (hbody : Enclosed route.sample.fenced.2.toList) :
    ReadAs (sectionLines route) (sectionBlocks route) := by
  have hheading : ReadAs [⟨'#' :: '#' :: ' ' :: (route.method.toList ++ ' ' :: route.path.toList), true⟩]
      [.heading 2 (Markdown.atxContent (' ' :: (route.method.toList ++ ' ' :: route.path.toList)))] :=
    ReadAs.heading (by simp [Markdown.atxHeading?, Markdown.isSpace])
  have hfunction := ReadAs.paragraph (c := 'F') (by decide) (by decide) ("unction**: ".toList ++ route.function.toList)
  have hdescription :=
    ReadAs.paragraph (c := 'D') (by decide) (by decide) ("escription**: ".toList ++ route.description.toList)
  have hsample := ReadAs.paragraph (c := 'S') (by decide) (by decide) "ample Response**:".toList
  have hticks : '\x60' ∉ route.sample.fenced.1.toList := by
    rcases language_cases route.sample with h | h <;> rw [h] <;> decide
  have hlines : ∀ line ∈ ((Text.pieces '\n' route.sample.fenced.2.toList).map fun piece => (⟨piece, true⟩ : Line)),
      endsFence 3 line.text = false := by
    intro line hline
    obtain ⟨piece, hpiece, rfl⟩ := List.mem_map.mp hline
    exact hbody.within piece hpiece
  have hraw : (((Text.pieces '\n' route.sample.fenced.2.toList).map fun piece => (⟨piece, true⟩ : Line)).flatMap Line.raw) =
      route.sample.fenced.2.toList ++ ['\n'] := by
    rw [List.flatMap_map, ← Text.flatMap_pieces]
    rfl
  have hcode := ReadAs.fence hticks hlines
  rw [hraw, unescape_language] at hcode
  have hall := (hheading.append .blank).append (hfunction.append (hdescription.append
    (hsample.append (hcode.append .blank))))
  simpa [sectionLines, sectionBlocks, openingLines, closingLine] using hall

/-! ### Pages -/

/-- The first line of a page behind its number sign. -/
def titleText (title : String) : List Char := ' ' :: ("API Documentation (".toList ++ title.toList ++ [')'])

theorem toList_markdown (title : String) (routes : List Route) :
    (markdown title routes).toList =
      '#' :: titleText title ++ '\n' :: '\n' :: (routes.flatMap fun route => route.section.toList) := by
  have hsections : (String.join (routes.map Route.section)).toList = routes.flatMap fun route => route.section.toList := by
    rw [String.toList_join, List.flatMap_map]
  have hopening : "# API Documentation (".toList = '#' :: ' ' :: "API Documentation (".toList := by decide
  have hclosing : ")\n\n".toList = [')', '\n', '\n'] := by decide
  unfold markdown titleText
  rw [String.toList_append, String.toList_append, String.toList_append, hsections, hopening, hclosing]
  simp only [List.append_assoc, List.cons_append, List.nil_append]

theorem lines_sections {routes : List Route}
    (h : ∀ route ∈ routes, OneLine route ∧ '\r' ∉ route.sample.fenced.2.toList) :
    lines (routes.flatMap fun route => route.section.toList) = routes.flatMap sectionLines := by
  induction routes with
  | nil => rfl
  | cons route routes ih =>
      obtain ⟨hline, hreturn⟩ := h route List.mem_cons_self
      rw [List.flatMap_cons, lines_section hline hreturn,
        ih fun other hother => h other (List.mem_cons_of_mem route hother),
        List.flatMap_cons]

/-- A page is its title and the blocks of its sections. -/
theorem ofText_markdown {title : String} {routes : List Route} (htitle : Unbroken title.toList)
    (h : ∀ route ∈ routes, OneLine route ∧ Enclosed route.sample.fenced.2.toList) :
    Markdown.Tree.ofText (markdown title routes).toList =
      ⟨.heading 1 (Markdown.atxContent (titleText title)) :: routes.flatMap sectionBlocks, []⟩ := by
  have hunbroken : Unbroken ('#' :: titleText title) :=
    unbroken_append (unbroken_append (by decide : Unbroken ('#' :: ' ' :: "API Documentation (".toList)) htitle)
      (by decide : Unbroken [')'])
  have hlines : lines (markdown title routes).toList =
      [⟨'#' :: titleText title, true⟩, ⟨[], true⟩] ++ routes.flatMap sectionLines := by
    have hblank : lines ('\n' :: routes.flatMap fun route => route.section.toList) =
        ⟨[], true⟩ :: lines (routes.flatMap fun route => route.section.toList) :=
      Markdown.lines_unbroken (by decide : Unbroken []) _
    rw [toList_markdown, Markdown.lines_unbroken hunbroken, hblank,
      lines_sections fun route hroute => ⟨(h route hroute).1, (h route hroute).2.noReturn⟩]
    rfl
  have hheading : ReadAs [⟨'#' :: titleText title, true⟩] [.heading 1 (Markdown.atxContent (titleText title))] :=
    ReadAs.heading (by simp [titleText, Markdown.atxHeading?, Markdown.isSpace])
  apply Markdown.Tree.ofText_eq
  rw [hlines]
  exact (hheading.append .blank).append (.flatMap fun route hroute => readAs_section (h route hroute).2)

end RouteBook.Routes
