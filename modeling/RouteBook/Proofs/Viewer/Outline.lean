import Mathlib
import RouteBook.Proofs.Routes.Sections
import RouteBook.Proofs.Viewer.Markup

/-! The outline of a document page: its headings and its samples, read off the page's characters at every place
where one of their tags stands. No text of a document stands for such a tag, so the page of a list of routes has
one title and for each route one heading and one sample, and the sample is read back as it was. -/

namespace RouteBook.Viewer

open Markdown (Element Event Inline Unbroken)
open Markdown.Html
open Markdown.Html.Writer
open Routes (Route Sample collect markdownFor)

/-! ### References -/

/-- What stands behind an ampersand for the signs that are written as references. -/
def references : List (List Char × Char) :=
  [("amp;".toList, '&'), ("lt;".toList, '<'), ("gt;".toList, '>'), ("quot;".toList, '"'), ("#39;".toList, '\x27'),
   ("#x27;".toList, '\x27')]

/-- One sign of a text, and what stands behind it. -/
def readSign (c : Char) (rest : List Char) : Char × List Char :=
  if c = '&' then
    (references.findSome? fun (name, sign) => (Text.after? name rest).map fun behind => (sign, behind)).getD (c, rest)
  else (c, rest)

/-- A text with its references read. -/
def unescapeHtml (text : List Char) : List Char := Text.chunks readSign text

theorem unescapeHtml_cons {c sign : Char} {rest behind : List Char} (h : readSign c rest = (sign, behind))
    (hlength : behind.length ≤ rest.length) : unescapeHtml (c :: rest) = sign :: unescapeHtml behind := by
  rw [unescapeHtml, Text.chunks, h]
  exact if_pos hlength

/-- A reference is read as the sign that it stands for. -/
theorem unescapeHtml_reference {name : List Char} {sign : Char} (h : (name, sign) ∈ references) (rest : List Char) :
    unescapeHtml ('&' :: name ++ rest) = sign :: unescapeHtml rest := by
  have hread : readSign '&' (name ++ rest) = (sign, rest) := by
    fin_cases h <;> simp [readSign, references, Text.after?]
  exact unescapeHtml_cons hread (by simp)

theorem unescapeHtml_bodyChar (c : Char) (rest : List Char) :
    unescapeHtml (bodyChar c ++ rest) = c :: unescapeHtml rest := by
  unfold bodyChar
  split_ifs with hamp hlt hgt
  · rw [hamp]
    exact unescapeHtml_reference (by decide) rest
  · rw [hlt]
    exact unescapeHtml_reference (by decide) rest
  · rw [hgt]
    exact unescapeHtml_reference (by decide) rest
  · exact unescapeHtml_cons (if_neg hamp) le_rfl

/-- A text between tags is read back as it was. -/
theorem unescapeHtml_escapeBody (text : List Char) : unescapeHtml (escapeBody text) = text := by
  induction text with
  | nil => rw [escapeBody, List.flatMap_nil, unescapeHtml, Text.chunks]
  | cons c rest ih =>
      rw [escapeBody, List.flatMap_cons, unescapeHtml_bodyChar]
      exact congrArg (c :: ·) ih

/-! ### Outlines -/

/-- What a page shows of a document: its title, the headings of its routes and their samples. -/
inductive Mark
  | title
  | route
  | sample (body : List Char)
  deriving DecidableEq

def titleTag : List Char := "<h1>".toList

def routeTag : List Char := "<h2>".toList

def sampleTag : List Char := "<pre><code class=\"language-json\">".toList

def sampleEnd : List Char := "</code></pre>".toList

/-- The content of a sample: all that stands before the first tags that end one, with its references read. -/
def sampleBody (text : List Char) : List Char := unescapeHtml ((Text.splitAt? sampleEnd text).elim text Prod.fst)

/-- The mark that stands at the front of a text. -/
def markAt? (text : List Char) : Option Mark :=
  if titleTag <+: text then some .title
  else if routeTag <+: text then some .route
  else (Text.after? sampleTag text).map fun behind => .sample (sampleBody behind)

/-- The marks of a text, wherever they stand. -/
def outline : List Char → List Mark
  | [] => []
  | c :: rest => (markAt? (c :: rest)).toList ++ outline rest

/-- A text that brings its own marks to an outline, whatever follows it. -/
def Outlined (found : List Mark) (text : List Char) : Prop := ∀ rest, outline (text ++ rest) = found ++ outline rest

/-- A text without marks. -/
abbrev Silent (text : List Char) : Prop := Outlined [] text

variable {found more : List Mark} {text back : List Char}

theorem Outlined.append (h : Outlined found text) (hback : Outlined more back) :
    Outlined (found ++ more) (text ++ back) := by
  intro rest
  rw [List.append_assoc, h, hback, List.append_assoc]

theorem silent_nil : Silent [] := fun _ => rfl

/-- A tag that agrees with no tag of a mark, as far as the shorter of the two goes, or a text without tags. -/
structure Unmarked (tag : List Char) : Prop where
  single : '<' ∉ tag.tail
  apart : ∀ key ∈ [titleTag, routeTag, sampleTag], ¬key <+: tag ∧ ¬tag <+: key

instance (tag : List Char) : Decidable (Unmarked tag) :=
  decidable_of_iff ('<' ∉ tag.tail ∧ ∀ key ∈ [titleTag, routeTag, sampleTag], ¬key <+: tag ∧ ¬tag <+: key)
    ⟨fun h => ⟨h.1, h.2⟩, fun h => ⟨h.single, h.apart⟩⟩

theorem not_prefix_append {key tag : List Char} (h : ¬key <+: tag ∧ ¬tag <+: key) (rest : List Char) :
    ¬key <+: tag ++ rest := by
  intro hstart
  rcases List.prefix_or_prefix_of_prefix hstart (List.prefix_append tag rest) with hshort | hlong
  · exact h.1 hshort
  · exact h.2 hlong

theorem markAt?_eq_none (h : ∀ key ∈ [titleTag, routeTag, sampleTag], ¬key <+: text) : markAt? text = none := by
  simp only [List.forall_mem_cons] at h
  obtain ⟨htitle, hroute, hsample, -⟩ := h
  have hafter : Text.after? sampleTag text = none := by
    rw [Option.eq_none_iff_forall_ne_some]
    intro behind hbehind
    exact hsample ⟨behind, (Text.after?_eq_some_iff.mp hbehind).symm⟩
  rw [markAt?, if_neg htitle, if_neg hroute, hafter, Option.map_none]

theorem silent_of_not_mem (h : '<' ∉ text) : Silent text := by
  intro rest
  induction text with
  | nil => rfl
  | cons c text ih =>
      have hc : c ≠ '<' := fun heq => h (heq ▸ List.mem_cons_self)
      have hkeys : ∀ key ∈ [titleTag, routeTag, sampleTag], key.head? = some '<' := by decide
      have hnone : markAt? (c :: (text ++ rest)) = none := by
        refine markAt?_eq_none fun key hkey hstart => hc ?_
        cases key with
        | nil => exact absurd (hkeys [] hkey) (by simp)
        | cons d key =>
            have hd : d = '<' := by simpa using hkeys (d :: key) hkey
            exact (List.cons_prefix_cons.mp hstart).1.symm.trans hd
      rw [List.cons_append, outline, hnone, ih fun hmem => h (List.mem_cons_of_mem c hmem)]
      rfl

theorem silent_inert (h : Inert text) : Silent text := silent_of_not_mem fun hmem => h '<' hmem (by decide)

/-- A tag marks its first place or none. -/
theorem outlined_tag (hne : text ≠ []) (hsingle : '<' ∉ text.tail)
    (hmark : ∀ rest, (markAt? (text ++ rest)).toList = found) : Outlined found text := by
  intro rest
  cases text with
  | nil => exact absurd rfl hne
  | cons c tag =>
      have hfirst := hmark rest
      have hrest : Silent tag := silent_of_not_mem hsingle
      rw [List.cons_append] at hfirst ⊢
      rw [outline, hfirst, hrest rest]
      rfl

theorem Unmarked.silent (h : Unmarked text) : Silent text := by
  by_cases hne : text = []
  · rw [hne]
    exact silent_nil
  · refine outlined_tag hne h.single fun rest => ?_
    rw [markAt?_eq_none fun key hkey => not_prefix_append (h.apart key hkey) rest, Option.toList_none]

/-- Fixed words in a row. -/
theorem silent_words (words : List String) (htext : (words.map String.toList).flatten = text)
    (h : ∀ word ∈ words, Unmarked word.toList) : Silent text := by
  subst htext
  induction words with
  | nil => exact silent_nil
  | cons word words ih =>
      exact (h word List.mem_cons_self).silent.append (ih fun other hother => h other (List.mem_cons_of_mem word hother))

theorem outlined_title : Outlined [.title] titleTag := by
  refine outlined_tag (by decide) (by decide) fun rest => ?_
  rw [markAt?, if_pos (List.prefix_append titleTag rest), Option.toList_some]

theorem outlined_route : Outlined [.route] routeTag := by
  refine outlined_tag (by decide) (by decide) fun rest => ?_
  rw [markAt?, if_neg (not_prefix_append (by decide) rest), if_pos (List.prefix_append routeTag rest), Option.toList_some]

theorem splitAt?_sampleEnd (h : '<' ∉ text) (rest : List Char) :
    Text.splitAt? sampleEnd (text ++ (sampleEnd ++ rest)) = some (text, rest) := by
  have hafter : Text.after? sampleEnd (sampleEnd ++ rest) = some rest := Text.after?_eq_some_iff.mpr rfl
  induction text with
  | nil =>
      rw [List.nil_append, show sampleEnd ++ rest = '<' :: (sampleEnd.tail ++ rest) from rfl, Text.splitAt?,
        show '<' :: (sampleEnd.tail ++ rest) = sampleEnd ++ rest from rfl, hafter]
  | cons c text ih =>
      have hc : '<' ≠ c := fun heq => h (heq ▸ List.mem_cons_self)
      have hnone : Text.after? sampleEnd (c :: (text ++ (sampleEnd ++ rest))) = none := by
        rw [show sampleEnd = '<' :: sampleEnd.tail from rfl, Text.after?, if_neg hc]
      rw [List.cons_append, Text.splitAt?, hnone, ih fun hmem => h (List.mem_cons_of_mem c hmem)]
      rfl

/-- A sample between its tags. -/
theorem outlined_sample (body : List Char) : Outlined [.sample body] (sampleTag ++ escapeBody body ++ sampleEnd) := by
  have hinert : '<' ∉ escapeBody body := fun hmem => escapeBody_inert body '<' hmem (by decide)
  have hrest : Silent (sampleTag.tail ++ escapeBody body ++ sampleEnd) := by
    have htag : Silent sampleTag.tail := silent_words ["pre>", "<code class=\"language-json\">"] (by decide) (by decide)
    have hend : Silent sampleEnd := silent_words ["</code>", "</pre>"] (by decide) (by decide)
    exact (htag.append (silent_of_not_mem hinert)).append hend
  intro rest
  have htext : sampleTag ++ escapeBody body ++ sampleEnd ++ rest =
      '<' :: (sampleTag.tail ++ escapeBody body ++ sampleEnd ++ rest) := rfl
  have hmark : markAt? (sampleTag ++ escapeBody body ++ sampleEnd ++ rest) = some (.sample body) := by
    have hafter : Text.after? sampleTag (sampleTag ++ escapeBody body ++ sampleEnd ++ rest) =
        some (escapeBody body ++ (sampleEnd ++ rest)) := by
      rw [Text.after?_eq_some_iff]
      simp only [List.append_assoc]
    have hkeys : ∀ key ∈ [titleTag, routeTag], ¬key <+: sampleTag ++ escapeBody body ++ sampleEnd ++ rest := by
      intro key hkey
      rw [List.append_assoc, List.append_assoc]
      have happart : ∀ key ∈ [titleTag, routeTag], ¬key <+: sampleTag ∧ ¬sampleTag <+: key := by decide
      exact not_prefix_append (happart key hkey) _
    rw [markAt?, if_neg (hkeys titleTag (by simp)), if_neg (hkeys routeTag (by simp)), hafter, Option.map_some, sampleBody,
      splitAt?_sampleEnd hinert, Option.elim_some, unescapeHtml_escapeBody]
  rw [htext, outline, ← htext, hmark, hrest rest]
  rfl

/-! ### Writing -/

/-- Some events add their own marks to an outline, whatever was written before. -/
def Writes (found : List Mark) (events : List Event) : Prop :=
  ∀ w : Writer, w.Added (Outlined found) (events.foldl write w)

namespace Writes

variable {front rest : List Event} {event : Event}

theorem nil : Writes [] [] := fun w => ⟨[], (List.append_nil w.output).symm, silent_nil⟩

theorem append (h : Writes found front) (hrest : Writes more rest) : Writes (found ++ more) (front ++ rest) := by
  intro w
  obtain ⟨piece, houtput, hpiece⟩ := h w
  obtain ⟨behind, houtput', hbehind⟩ := hrest (front.foldl write w)
  refine ⟨piece ++ behind, ?_, hpiece.append hbehind⟩
  rw [List.foldl_append, houtput', houtput, List.append_assoc]

theorem one (h : ∀ w : Writer, w.Added (Outlined found) (write w event)) : Writes found [event] := h

theorem flatMap {α : Type} {items : List α} {marks : α → List Mark} {events : α → List Event}
    (h : ∀ item ∈ items, Writes (marks item) (events item)) : Writes (items.flatMap marks) (items.flatMap events) := by
  induction items with
  | nil => exact nil
  | cons item items ih =>
      exact (h item List.mem_cons_self).append (ih fun other hother => h other (List.mem_cons_of_mem item hother))

/-- An element whose content is silent brings the marks of its opening. -/
theorem around {element : Element} {inside : List Event} (hopen : ∀ w : Writer, w.Added (Outlined found) (enter w element))
    (hclose : ∀ w : Writer, w.Added Silent (leave w element)) (hinside : Writes [] (inside.map asText)) :
    Writes found ((Event.around element inside).map asText) := by
  have henter : Writes found [.enter element] := one hopen
  have hleave : Writes [] [.leave element] := one hclose
  have hall := (henter.append hinside).append hleave
  simpa [Event.around, asText] using hall

end Writes

theorem added_block {w : Writer} {opening : String} (h : Outlined found opening.toList) :
    w.Added (Outlined found) (w.putBlock opening) := by
  obtain ⟨lead, hlead, houtput⟩ := output_putBlock w opening
  exact ⟨_, houtput, (silent_inert hlead).append h⟩

/-- A tag of the vocabulary, known by its first signs. -/
theorem silent_vocabulary {tag start : List Char} (h : Vocabulary tag) (hstart : start <+: tag)
    (hapart : ∀ key ∈ [titleTag, routeTag, sampleTag], ¬key <+: start ∧ ¬start <+: key) : Silent tag := by
  obtain ⟨inner, rfl, hinner⟩ := h.eq_cons
  obtain ⟨behind, hbehind⟩ := hstart
  refine Unmarked.silent ⟨hinner, fun key hkey => ⟨?_, fun hlong => ?_⟩⟩
  · rw [← hbehind]
    exact not_prefix_append (hapart key hkey) behind
  · exact (hapart key hkey).2 (List.IsPrefix.trans ⟨behind, hbehind⟩ hlong)

theorem silent_link (target : Markdown.Target) : Silent
    ("<a href=\"".toList ++ escapeHref target.destination ++ ['"'] ++ titleAttribute target.title ++ ['>']) := by
  have hstart : "<a href=\"".toList <+:
      "<a href=\"".toList ++ escapeHref target.destination ++ ['"'] ++ titleAttribute target.title ++ ['>'] := by
    simp only [List.append_assoc, List.prefix_append]
  exact silent_vocabulary (vocabulary_link target) hstart (by decide)

theorem silent_image (target : Markdown.Target) (inner : List Event) : Silent
    ("<img src=\"".toList ++ escapeHref target.destination ++ "\" alt=\"".toList ++ description inner ++ ['"'] ++
      titleAttribute target.title ++ " />".toList) := by
  have hstart : "<img src=\"".toList <+: "<img src=\"".toList ++ escapeHref target.destination ++ "\" alt=\"".toList ++
      description inner ++ ['"'] ++ titleAttribute target.title ++ " />".toList := by
    simp only [List.append_assoc, List.prefix_append]
  exact silent_vocabulary (vocabulary_image target inner) hstart (by decide)

theorem silent_code (chars : List Char) : Silent ("<code>".toList ++ escapeBody chars ++ "</code>".toList) :=
  ((silent_words ["<code>"] (by decide) (by decide)).append (silent_inert (escapeBody_inert chars))).append
    (silent_words ["</code>"] (by decide) (by decide))

mutual

/-- No inline text brings a mark. -/
theorem writes_inline : ∀ item : Inline, Writes [] ((Event.ofInline item).map asText)
  | .text chars | .html chars => by
    simp only [Event.ofInline, List.map_singleton, asText]
    exact .one fun _ => added_put (silent_inert (escapeBody_inert chars))
  | .code chars => by
    simp only [Event.ofInline, List.map_singleton, asText]
    exact .one fun _ => added_put (silent_code chars)
  | .softBreak => by
    simp only [Event.ofInline, List.map_singleton, asText]
    exact .one fun _ => added_put (silent_inert (by decide : Inert ['\n']))
  | .hardBreak => by
    simp only [Event.ofInline, List.map_singleton, asText]
    exact .one fun _ => added_put (silent_words ["<br />", "\n"] (by decide) (by decide))
  | .emphasis content =>
    .around (fun _ => added_put (silent_words ["<em>"] (by decide) (by decide)))
      (fun _ => added_put (silent_words ["</em>"] (by decide) (by decide))) (writes_inlines content)
  | .strong content =>
    .around (fun _ => added_put (silent_words ["<strong>"] (by decide) (by decide)))
      (fun _ => added_put (silent_words ["</strong>"] (by decide) (by decide))) (writes_inlines content)
  | .link target content =>
    .around (fun _ => added_put (silent_link target))
      (fun _ => added_put (silent_words ["</a>"] (by decide) (by decide))) (writes_inlines content)
  | .image target content => by
    rw [Event.ofInline, List.map_singleton, asText]
    exact .one fun _ => added_put (silent_image target _)

theorem writes_inlines : ∀ items : List Inline, Writes [] ((Event.ofInlines items).map asText)
  | [] => by
    rw [Event.ofInlines]
    exact .nil
  | item :: rest => by
    rw [Event.ofInlines, List.map_append]
    exact (writes_inline item).append (writes_inlines rest)

end

/-! ### Blocks -/

theorem writes_heading (level : Nat) (hopen : Outlined found ("<h" ++ number level ++ ">").toList)
    (hclose : Silent ("</h" ++ number level ++ ">\n").toList) (content : List Char) :
    Writes found ((Event.ofBlock [] false (.heading level content)).map asText) := by
  rw [Event.ofBlock]
  exact .around (fun _ => added_block hopen) (fun _ => added_put hclose) (writes_inlines _)

theorem writes_paragraph (content : List Char) : Writes [] ((Event.ofBlock [] false (.paragraph content)).map asText) := by
  rw [Event.ofBlock]
  exact .around (fun _ => added_block (silent_words ["<p>"] (by decide) (by decide)))
    (fun _ => added_put (silent_words ["</p>", "\n"] (by decide) (by decide))) (writes_inlines _)

/-- A code block in JSON is written as a sample. -/
theorem writes_code (body : List Char) :
    Writes [.sample body] ((Event.ofBlock [] false (.code (some "json".toList) body)).map asText) := by
  have hlanguage : Event.firstWord "json".toList = "json".toList := by decide
  have htag : sampleTag = "<pre><code class=\"language-".toList ++ escapeAttribute "json".toList ++ "\">".toList := by
    decide
  have hend : "</code></pre>\n".toList = sampleEnd ++ ['\n'] := by decide
  intro w
  obtain ⟨lead, hlead, houtput⟩ := output_putBlock w "<pre><code class=\"language-"
  refine ⟨lead ++ (sampleTag ++ escapeBody body ++ sampleEnd ++ ['\n']), ?_, ?_⟩
  · simp only [Event.ofBlock, Event.around, Option.map_some, hlanguage, List.cons_append, List.nil_append, List.map_cons,
      List.map_nil, asText, List.foldl_cons, List.foldl_nil, write, leave, enter]
    rw [if_neg (by decide), hend, output_put, output_put, output_put, output_put, houtput, htag]
    simp only [List.append_assoc]
  · exact (silent_inert hlead).append ((outlined_sample body).append (silent_inert (by decide)))

theorem ofBlocks_eq_flatMap (blocks : List Markdown.Block) :
    Event.ofBlocks [] false blocks = blocks.flatMap (Event.ofBlock [] false) := by
  induction blocks with
  | nil => rw [Event.ofBlocks, List.flatMap_nil]
  | cons block blocks ih => rw [Event.ofBlocks, ih, List.flatMap_cons]

/-- The marks of a section: its heading, and its sample with a line feed behind it. -/
def sectionMarks (route : Route) : List Mark := [.route, .sample (route.sample.fenced.2.toList ++ ['\n'])]

theorem writes_section {route : Route} (h : route.sample.fenced.1 = "json") :
    Writes (sectionMarks route) ((Event.ofBlocks [] false (Routes.sectionBlocks route)).map asText) := by
  have hheading := writes_heading 2 outlined_route (silent_words ["</h2>", "\n"] (by decide) (by decide))
  rw [ofBlocks_eq_flatMap, Routes.sectionBlocks, h]
  simp only [List.flatMap_cons, List.flatMap_nil, List.map_append, List.append_nil]
  exact (hheading _).append ((writes_paragraph _).append ((writes_paragraph _).append ((writes_paragraph _).append
    (writes_code _))))

/-! ### Pages -/

/-- The page of a document whose texts hold no line breaks and whose samples are no plain texts has one title and
then, for each route in turn, one heading and one sample. -/
theorem outline_documentPage (file title : String) (document : OpenApi.Document) (htitle : Unbroken title.toList)
    (hlines : Routes.OneLiners document) (hsamples : ∀ route ∈ collect document, ∀ text, route.sample ≠ .text text) :
    outline (documentPage file (markdownFor document title)).toList =
      .title :: (collect document).flatMap sectionMarks := by
  have hroutes : ∀ route ∈ collect document, Routes.OneLine route ∧ Routes.Enclosed route.sample.fenced.2.toList :=
    fun route hroute => ⟨Routes.oneLine_of_mem_collect hlines hroute, (Routes.enclosed_fenced (hsamples route hroute)).2⟩
  have htree := Routes.ofText_markdown htitle hroutes
  have hwrites : Writes (.title :: (collect document).flatMap sectionMarks)
      ((Markdown.events (markdownFor document title)).map asText) := by
    have hheading := writes_heading 1 outlined_title (silent_words ["</h1>", "\n"] (by decide) (by decide))
      (Markdown.atxContent (Routes.titleText title))
    have hsections := Writes.flatMap fun route hroute =>
      writes_section (Routes.enclosed_fenced (hsamples route hroute)).1
    have hevents : (Markdown.events (markdownFor document title)).map asText =
        (Event.ofBlock [] false (.heading 1 (Markdown.atxContent (Routes.titleText title)))).map asText ++
          (collect document).flatMap fun route => (Event.ofBlocks [] false (Routes.sectionBlocks route)).map asText := by
      simp only [Markdown.events, markdownFor, htree, ofBlocks_eq_flatMap, List.flatMap_cons, List.flatMap_assoc,
        List.map_append, List.map_flatMap]
    rw [hevents]
    exact hheading.append hsections
  obtain ⟨piece, houtput, hpiece⟩ := hwrites .start
  have hbody : Outlined (.title :: (collect document).flatMap sectionMarks) (body (markdownFor document title)).toList := by
    rw [body, ofEvents, String.toList_ofList, houtput]
    exact hpiece
  have hhead : Silent pageHead.toList :=
    silent_words ["<!DOCTYPE html>", "\n", "<html>", "\n", "<head>", "<meta charset=\"utf-8\">", "<title>"]
      (by decide) (by decide)
  have hmiddle : Silent pageMiddle.toList :=
    silent_words ["</title>", "</head>", "\n", "<body>", "\n", "<a href=\"/\">", "&larr; Back to all docs", "</a>", "\n"]
      (by decide) (by decide)
  have hfoot : Silent pageFoot.toList := silent_words ["</body>", "\n", "</html>", "\n"] (by decide) (by decide)
  have hpage := ((((hhead.append (silent_inert (escapeHtml_inert file))).append hmiddle).append hbody).append hfoot) []
  rw [toList_documentPage]
  simpa [outline] using hpage

/-- A document whose texts look like headings, fences and tags. -/
def pretender : OpenApi.Document where
  tree := .obj [("paths", .obj [("/<h2>\x60\x60\x60", .obj [
    ("get", .obj [("operationId", .str "</code></pre><h1>"), ("summary", .str "# a\n\n\x60\x60\x60"), ("responses", .obj [
      ("200", .obj [("content", .obj [("application/json", .obj [("example", .str "\x60\x60\x60\n</code></pre>")])])])])]),
    ("put", .obj [])])])]

theorem collect_pretender : collect pretender =
    [⟨"GET", "/<h2>\x60\x60\x60", "</code></pre><h1>", "# a \x60\x60\x60", .json (.str "\x60\x60\x60\n</code></pre>")⟩,
     ⟨"PUT", "/<h2>\x60\x60\x60", "unknown", "No description provided.", .placeholder⟩] := by
  cbv

theorem oneLiners_pretender : Routes.OneLiners pretender := by
  have hentries : pretender.paths.entries.map (fun entry => (entry.1, (Routes.operations entry.2).map (·.2.operationId))) =
      [("/<h2>\x60\x60\x60", [some "</code></pre><h1>", none])] := by cbv
  intro path item hentry
  have hmem := List.mem_map_of_mem (f := fun entry => (entry.1, (Routes.operations entry.2).map (·.2.operationId))) hentry
  rw [hentries, List.mem_singleton, Prod.mk.injEq] at hmem
  obtain ⟨rfl, hids⟩ := hmem
  refine ⟨by decide, fun method operation hoperation name hname => ?_⟩
  have hid := List.mem_map_of_mem (f := (·.2.operationId)) hoperation
  rw [hids, hname] at hid
  simp only [List.mem_cons, Option.some.injEq, reduceCtorEq, List.not_mem_nil, or_false] at hid
  rw [hid]
  decide

theorem outline_documentPage_pretender :
    Unbroken "<h1>".toList ∧ Routes.OneLiners pretender ∧
    (∀ route ∈ collect pretender, ∀ text, route.sample ≠ .text text) ∧
    outline (documentPage "x-docs.md" (markdownFor pretender "<h1>")).toList =
      [.title, .route, .sample "\"\x60\x60\x60\\n</code></pre>\"\n".toList, .route,
       .sample "\x7b\n  \"status\": \"ok\"\n\x7d\n".toList] := by
  have hsamples : ∀ route ∈ collect pretender, ∀ text, route.sample ≠ .text text := by
    rw [collect_pretender]
    simp
  have houtline := outline_documentPage "x-docs.md" "<h1>" pretender (by decide) oneLiners_pretender hsamples
  refine ⟨by decide, oneLiners_pretender, hsamples, houtline.trans ?_⟩
  rw [collect_pretender]
  cbv

end RouteBook.Viewer
