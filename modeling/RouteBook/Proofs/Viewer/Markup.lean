import RouteBook.Proofs.Markdown.Markup
import RouteBook.Viewer.Page

/-! The markup of document pages. A page is its template around an escaped title and the document's own markup,
in which raw HTML has become text. So every sign that opens a tag belongs to the template or starts a tag that
a Markdown construct is written with. -/

namespace RouteBook.Viewer

open Markdown (Event)
open Markdown.Html

/-! ### Raw HTML as text -/

theorem asText_ne_html (event : Event) (chars : List Char) : asText event ≠ .html chars := by
  cases event <;> simp [asText]

theorem asText_proper {event : Event} (h : event.Proper) : (asText event).Proper := by
  cases event with
  | enter element | leave element => simpa [asText] using h
  | text | code | html | softBreak | hardBreak | rule | image => simp [asText, Event.Proper]

/-- As text, an event adds no more than it may. -/
theorem adds_of_asText {event : Event} {piece : List Char} (h : Adds (asText event) piece) : Adds event piece := by
  cases event <;> simpa [asText, Adds] using h

/-- The markup of a document is made of one piece for each event. -/
theorem body_eq_flatten (markdown : String) :
    ∃ pieces, (body markdown).toList = pieces.flatten ∧ List.Forall₂ Adds (Markdown.events markdown) pieces := by
  have hproper : ∀ event ∈ (Markdown.events markdown).map asText, event.Proper := by
    intro event hevent
    obtain ⟨source, hsource, rfl⟩ := List.mem_map.mp hevent
    exact asText_proper (Markdown.events_proper markdown source hsource)
  have hraw : ∀ event ∈ (Markdown.events markdown).map asText, ∀ chars, event ≠ .html chars := by
    intro event hevent
    obtain ⟨source, -, rfl⟩ := List.mem_map.mp hevent
    exact asText_ne_html source
  obtain ⟨pieces, houtput, hadds⟩ := added_foldl .start hproper hraw
  refine ⟨pieces, ?_, (List.forall₂_map_left_iff.mp hadds).imp fun _ _ => adds_of_asText⟩
  rw [body, ofEvents, String.toList_ofList, houtput]
  rfl

/-! ### Titles -/

theorem htmlReference_inert (c : Char) : Inert ((Text.htmlReference? c).getD c.toString).toList := by
  unfold Text.htmlReference?
  split_ifs with hamp hlt hgt hquote hapostrophe
  · exact (by decide : Inert "&amp;".toList)
  · exact (by decide : Inert "&lt;".toList)
  · exact (by decide : Inert "&gt;".toList)
  · exact (by decide : Inert "&quot;".toList)
  · exact (by decide : Inert "&#39;".toList)
  · intro d hd
    simp only [Option.getD_none, Char.toString_eq_singleton, String.toList_singleton, List.mem_singleton] at hd
    rw [hd]
    simp [hlt, hgt]

theorem escapeHtml_inert (text : String) : Inert (Text.escapeHtml text).toList := by
  rw [Text.escapeHtml, String.toList_join, List.flatMap_map]
  exact avoids_flatMap htmlReference_inert _

/-! ### Pages -/

/-- The template of a page up to its title. -/
def pageHead : String := "<!DOCTYPE html>\n<html>\n<head><meta charset=\"utf-8\"><title>"

/-- The template between the title and the document. -/
def pageMiddle : String := "</title></head>\n<body>\n" ++ "<a href=\"/\">&larr; Back to all docs</a>\n"

/-- The template behind the document. -/
def pageFoot : String := "</body>\n</html>\n"

theorem toList_documentPage (file markdown : String) :
    (documentPage file markdown).toList = pageHead.toList ++ (Text.escapeHtml file).toList ++ pageMiddle.toList ++
      (body markdown).toList ++ pageFoot.toList := by
  unfold documentPage shell pageHead pageMiddle pageFoot
  simp only [String.toList_append, List.append_assoc]

/-- The tags of the template. -/
def templateTags : List String :=
  ["<!DOCTYPE html>", "<html>", "<head>", "<meta charset=\"utf-8\">", "<title>", "</title>", "</head>", "<body>",
   "<a href=\"/\">", "</a>", "</body>", "</html>"]

def IsTemplate (tag : List Char) : Prop := tag ∈ templateTags.map String.toList

instance (tag : List Char) : Decidable (IsTemplate tag) :=
  inferInstanceAs (Decidable (tag ∈ templateTags.map String.toList))

/-- A tag that may stand in a page. -/
def PageTag (tag : List Char) : Prop := IsTemplate tag ∨ Vocabulary tag

theorem PageTag.eq_cons {tag : List Char} (h : PageTag tag) : ∃ inner, tag = '<' :: inner ∧ '<' ∉ inner := by
  have htemplate : ∀ tag ∈ templateTags.map String.toList, tag.head? = some '<' ∧ '<' ∉ tag.tail := by decide
  rcases h with h | h
  · obtain ⟨hhead, htail⟩ := htemplate tag h
    exact ⟨tag.tail, (List.cons_head?_tail hhead).symm, htail⟩
  · exact h.eq_cons

theorem PageTag.not_script {tag text : List Char} (h : PageTag tag) (htag : tag <+: text) :
    ¬"<script".toList <+: text := by
  have htemplate : ∀ tag ∈ templateTags.map String.toList, ¬tag <+: "<script".toList ∧ ¬"<script".toList <+: tag := by
    decide
  rcases h with h | h
  · intro hscript
    rcases List.prefix_or_prefix_of_prefix htag hscript with hshort | hlong
    · exact (htemplate tag h).1 hshort
    · exact (htemplate tag h).2 hlong
  · exact h.not_script htag

theorem markup_documentPage (file markdown : String) : Markup PageTag (documentPage file markdown).toList := by
  have htemplate : ∀ text, Markup IsTemplate text → Markup PageTag text := fun text h => h.mono fun _ => Or.inl
  have hhead : Markup IsTemplate pageHead.toList :=
    .of_words ["<!DOCTYPE html>", "\n", "<html>", "\n", "<head>", "<meta charset=\"utf-8\">", "<title>"]
      (by decide) (by decide)
  have hmiddle : Markup IsTemplate pageMiddle.toList :=
    .of_words ["</title>", "</head>", "\n", "<body>", "\n", "<a href=\"/\">", "&larr; Back to all docs", "</a>", "\n"]
      (by decide) (by decide)
  have hfoot : Markup IsTemplate pageFoot.toList :=
    .of_words ["</body>", "\n", "</html>", "\n"] (by decide) (by decide)
  have hbody : Markup PageTag (body markdown).toList := by
    obtain ⟨pieces, hpieces, hadds⟩ := body_eq_flatten markdown
    rw [hpieces]
    exact (markup_of_adds hadds).mono fun _ => Or.inr
  rw [toList_documentPage]
  exact ((((htemplate _ hhead).append (.of_inert (escapeHtml_inert file))).append (htemplate _ hmiddle)).append
    hbody).append (htemplate _ hfoot)

/-- A document page is its template around an inert title and the pieces that the document's events add. Raw HTML
adds escaped text, as text does; every sign that opens a tag in the pieces starts a tag of the vocabulary; and no
script begins anywhere in the page. -/
theorem documentPage_tags (file markdown : String) :
    ∃ title pieces, (documentPage file markdown).toList =
        pageHead.toList ++ title ++ pageMiddle.toList ++ pieces.flatten ++ pageFoot.toList ∧
      Inert title ∧ List.Forall₂ Adds (Markdown.events markdown) pieces ∧
      (∀ before after, pieces.flatten = before ++ '<' :: after → ∃ tag, Vocabulary tag ∧ tag <+: '<' :: after) ∧
      ¬"<script".toList <:+: (documentPage file markdown).toList := by
  obtain ⟨pieces, hpieces, hadds⟩ := body_eq_flatten markdown
  refine ⟨(Text.escapeHtml file).toList, pieces, ?_, escapeHtml_inert file, hadds, ?_, ?_⟩
  · rw [toList_documentPage, hpieces]
  · intro before after hsplit
    exact (markup_of_adds hadds).exists_tag (fun _ => Vocabulary.eq_cons) hsplit
  · rintro ⟨before, after, hscript⟩
    have hsplit : (documentPage file markdown).toList = before ++ '<' :: ("script".toList ++ after) := by
      rw [← hscript, List.append_assoc]
      rfl
    obtain ⟨tag, htag, hstart⟩ := (markup_documentPage file markdown).exists_tag (fun _ => PageTag.eq_cons) hsplit
    exact htag.not_script hstart (List.prefix_append "<script".toList after)

end RouteBook.Viewer
