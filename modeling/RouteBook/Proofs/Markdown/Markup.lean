import RouteBook.Markdown.Html
import RouteBook.Proofs.Markdown.Levels
import RouteBook.Proofs.Text.Ascii

/-! What Markdown is written with. A page's markup is made of tags of a fixed vocabulary, whose attributes are
quoted, and of texts in between that open and close no tag. Each event adds such a piece, and an event for
text adds text only; so no sign of the source opens a tag, wherever it comes from. -/

namespace RouteBook.Markdown.Html

/-! ### Texts without marks -/

/-- None of the marks stands in a text. -/
def Avoids (marks text : List Char) : Prop := ∀ c ∈ text, c ∉ marks

-- The text is gone through; there are too many characters to go through those.
instance (marks text : List Char) : Decidable (Avoids marks text) := List.decidableBAll (fun c => c ∉ marks) text

/-- A text that opens and closes no tag. -/
abbrev Inert (text : List Char) : Prop := Avoids ['<', '>'] text

/-- A text that can stand between quotes in a tag. -/
abbrev Quoted (text : List Char) : Prop := Avoids ['<', '>', '"'] text

variable {marks text : List Char}

theorem Avoids.append {more : List Char} (h : Avoids marks text) (hmore : Avoids marks more) :
    Avoids marks (text ++ more) := by
  intro c hc
  rcases List.mem_append.mp hc with hc | hc
  · exact h c hc
  · exact hmore c hc

theorem avoids_flatMap {α : Type} {f : α → List Char} (h : ∀ item, Avoids marks (f item)) (items : List α) :
    Avoids marks (items.flatMap f) := by
  intro c hc
  obtain ⟨item, -, hc⟩ := List.mem_flatMap.mp hc
  exact h item c hc

theorem bodyChar_inert (c : Char) : Inert (bodyChar c) := by
  unfold bodyChar
  split_ifs with hamp hlt hgt
  · decide
  · decide
  · decide
  · intro d hd
    rw [List.mem_singleton.mp hd]
    simp [hlt, hgt]

theorem escapeBody_inert (text : List Char) : Inert (escapeBody text) := avoids_flatMap bodyChar_inert text

theorem attributeChar_quoted (c : Char) : Quoted (attributeChar c) := by
  unfold attributeChar
  split_ifs with hquote hapostrophe
  · decide
  · decide
  · intro d hd
    have hinert := bodyChar_inert c d hd
    have hquote' : d ≠ '"' := by
      rintro rfl
      unfold bodyChar at hd
      split_ifs at hd with hamp hlt hgt
      · exact absurd hd (by decide)
      · exact absurd hd (by decide)
      · exact absurd hd (by decide)
      · exact hquote (List.mem_singleton.mp hd).symm
    simp only [List.mem_cons, List.not_mem_nil, or_false, not_or] at hinert ⊢
    exact ⟨hinert.1, hinert.2, hquote'⟩

theorem escapeAttribute_quoted (text : List Char) : Quoted (escapeAttribute text) :=
  avoids_flatMap attributeChar_quoted text

theorem percentByte_quoted (b : UInt8) : Quoted (Text.percentByte b) := by
  have hdigit : ∀ n < 16, Text.upperHexDigit n ∉ ['<', '>', '"'] := by decide
  have hhigh : b.toNat / 16 < 16 := by
    have := b.toNat_lt
    omega
  intro c hc
  simp only [Text.percentByte, List.mem_cons, List.not_mem_nil, or_false] at hc
  rcases hc with rfl | rfl | rfl
  · decide
  · exact hdigit _ hhigh
  · exact hdigit _ (Nat.mod_lt _ (by decide))

theorem hrefByte_quoted (b : UInt8) : Quoted (hrefByte b) := by
  have hmarks : ∀ mark ∈ ['<', '>', '"'], isHrefByte (asciiByte mark) = false := by
    intro mark hmark
    fin_cases hmark <;> decide
  unfold hrefByte
  split_ifs with hself hamp hapostrophe
  · intro c hc hmark
    rw [List.mem_singleton] at hc
    rw [eq_asciiByte_of_ofNat hc.symm, hmarks c hmark] at hself
    cases hself
  · decide
  · decide
  · exact percentByte_quoted b

theorem escapeHref_quoted (text : List Char) : Quoted (escapeHref text) := avoids_flatMap hrefByte_quoted _

theorem number_quoted (n : Nat) : Quoted (number n).toList := by
  intro c hc
  rw [number, String.toList_ofList] at hc
  have hdigit := Nat.isDigit_of_mem_toDigits (by decide) (by decide) hc
  intro hmark
  fin_cases hmark <;> exact absurd hdigit (by decide)

theorem space_quoted {text : List Char} (h : Quoted text) : Quoted (' ' :: text) := by
  intro c hc
  rcases List.mem_cons.mp hc with rfl | hc
  · decide
  · exact h c hc

/-- Whatever stands in the description of an image, raw HTML included, is quoted. -/
theorem description_quoted (events : List Event) : Quoted (description events) := by
  fun_induction description events with
  | case1 => intro c hc; cases hc
  | case2 chars rest ih | case3 chars rest ih | case4 chars rest ih => exact (escapeAttribute_quoted chars).append ih
  | case5 rest ih | case6 rest ih | case7 rest ih => exact space_quoted ih
  | case8 target inner rest ihInner ih => exact ihInner.append ih
  | case9 element rest ih | case10 element rest ih => exact ih

/-! ### Tags -/

/-- What a kind of tag looks like: the name of the element, the names of its attributes, and whether it stands
alone. -/
structure Form where
  name : String
  keys : List String := []
  void : Bool := false
  deriving DecidableEq

/-- The elements that Markdown is written with. -/
def forms : List Form :=
  [{ name := "p" }, { name := "h1" }, { name := "h2" }, { name := "h3" }, { name := "h4" }, { name := "h5" },
   { name := "h6" }, { name := "blockquote" }, { name := "pre" }, { name := "code", keys := ["class"] },
   { name := "ul" }, { name := "ol", keys := ["start"] }, { name := "li" }, { name := "table" }, { name := "thead" },
   { name := "tbody" }, { name := "tr" }, { name := "th", keys := ["style"] }, { name := "td", keys := ["style"] },
   { name := "em" }, { name := "strong" }, { name := "a", keys := ["href", "title"] },
   { name := "img", keys := ["src", "alt", "title"], void := true }, { name := "br", void := true },
   { name := "hr", void := true }]

def attributeText (pair : String × List Char) : List Char :=
  ' ' :: pair.1.toList ++ "=\"".toList ++ pair.2 ++ ['"']

/-- A tag that opens an element, or is all of it. -/
def Form.opening (form : Form) (attributes : List (String × List Char)) : List Char :=
  '<' :: (form.name.toList ++ attributes.flatMap attributeText ++ (if form.void then " />" else ">").toList)

def Form.closing (form : Form) : List Char := '<' :: '/' :: (form.name.toList ++ ['>'])

/-- The tags of the vocabulary: attributes have the names that belong to the element, and quoted values. -/
inductive Vocabulary : List Char → Prop
  | opening {form : Form} {attributes : List (String × List Char)} (hform : form ∈ forms)
      (hattributes : ∀ pair ∈ attributes, pair.1 ∈ form.keys ∧ Quoted pair.2) :
      Vocabulary (form.opening attributes)
  | closing {form : Form} (hform : form ∈ forms) (hvoid : form.void = false) : Vocabulary form.closing

/-- The signs of a tag after the first. -/
theorem Vocabulary.eq_cons {tag : List Char} (h : Vocabulary tag) : ∃ inner, tag = '<' :: inner ∧ '<' ∉ inner := by
  have hnames : ∀ form ∈ forms, '<' ∉ form.name.toList := by decide
  have hkeys : ∀ form ∈ forms, ∀ key ∈ form.keys, '<' ∉ key.toList := by decide
  cases h with
  | @opening form attributes hform hattributes =>
      refine ⟨_, rfl, ?_⟩
      rw [List.mem_append, List.mem_append, not_or, not_or]
      refine ⟨⟨hnames form hform, ?_⟩, by split_ifs <;> decide⟩
      intro hmem
      obtain ⟨pair, hpair, hmem⟩ := List.mem_flatMap.mp hmem
      obtain ⟨hkey, hvalue⟩ := hattributes pair hpair
      have hvalue' : '<' ∉ pair.2 := fun hlt => hvalue '<' hlt (by decide)
      simp [attributeText, hkeys form hform pair.1 hkey, hvalue'] at hmem
  | @closing form hform =>
      refine ⟨'/' :: (form.name.toList ++ ['>']), rfl, ?_⟩
      simp [hnames form hform]

/-- No tag of the vocabulary agrees with the beginning of a script, as far as the shorter of the two goes. -/
theorem Vocabulary.not_script {tag text : List Char} (h : Vocabulary tag) (htag : tag <+: text) :
    ¬"<script".toList <+: text := by
  have hnames : ∀ form ∈ forms,
      ¬form.name.toList <+: "script".toList ∧ ¬"script".toList <+: form.name.toList := by decide
  intro hscript
  cases text with
  | nil => simp at hscript
  | cons c rest =>
      have hrest : "script".toList <+: rest := (List.cons_prefix_cons.mp hscript).2
      cases h with
      | @opening form attributes hform =>
          have hname : form.name.toList <+: rest := by
            refine List.IsPrefix.trans ?_ (List.cons_prefix_cons.mp htag).2
            rw [List.append_assoc]
            exact List.prefix_append _ _
          rcases List.prefix_or_prefix_of_prefix hname hrest with hshort | hlong
          · exact (hnames form hform).1 hshort
          · exact (hnames form hform).2 hlong
      | @closing form hform =>
          have hslash := List.prefix_or_prefix_of_prefix (List.cons_prefix_cons.mp htag).2 hrest
          simp at hslash

/-! ### Markup -/

/-- A text put together from inert texts and tags. -/
def Markup (tags : List Char → Prop) (text : List Char) : Prop :=
  ∃ pieces : List (List Char), pieces.flatten = text ∧ ∀ piece ∈ pieces, Inert piece ∨ tags piece

namespace Markup

variable {tags others : List Char → Prop} {text more : List Char}

theorem of_inert (h : Inert text) : Markup tags text := ⟨[text], by simp, by simp [h]⟩

theorem of_tag (h : tags text) : Markup tags text := ⟨[text], by simp, by simp [h]⟩

theorem append (h : Markup tags text) (hmore : Markup tags more) : Markup tags (text ++ more) := by
  obtain ⟨pieces, rfl, hpieces⟩ := h
  obtain ⟨morePieces, rfl, hmorePieces⟩ := hmore
  refine ⟨pieces ++ morePieces, List.flatten_append, fun piece hpiece => ?_⟩
  rcases List.mem_append.mp hpiece with hpiece | hpiece
  · exact hpieces piece hpiece
  · exact hmorePieces piece hpiece

theorem mono (h : Markup tags text) (hothers : ∀ tag, tags tag → others tag) : Markup others text := by
  obtain ⟨pieces, rfl, hpieces⟩ := h
  exact ⟨pieces, rfl, fun piece hpiece => (hpieces piece hpiece).imp_right (hothers piece)⟩

/-- Fixed words in a row. -/
theorem of_words (words : List String) (htext : (words.map String.toList).flatten = text)
    (h : ∀ word ∈ words, Inert word.toList ∨ tags word.toList) : Markup tags text := by
  refine ⟨words.map String.toList, htext, fun piece hpiece => ?_⟩
  obtain ⟨word, hword, rfl⟩ := List.mem_map.mp hpiece
  exact h word hword

/-- Where every tag starts with its only opening sign, every opening sign starts a tag. -/
theorem exists_tag (h : Markup tags text) (htags : ∀ tag, tags tag → ∃ inner, tag = '<' :: inner ∧ '<' ∉ inner)
    {before after : List Char} (hsplit : text = before ++ '<' :: after) : ∃ tag, tags tag ∧ tag <+: '<' :: after := by
  obtain ⟨pieces, hflatten, hpieces⟩ := h
  rw [hsplit] at hflatten
  clear hsplit
  induction pieces generalizing before with
  | nil => simp at hflatten
  | cons piece pieces ih =>
      have hrest : ∀ other ∈ pieces, Inert other ∨ tags other :=
        fun other hother => hpieces other (List.mem_cons_of_mem piece hother)
      rw [List.flatten_cons] at hflatten
      rcases List.append_eq_append_iff.mp hflatten with ⟨middle, hbefore, hafter⟩ | ⟨middle, hpiece, hafter⟩
      · exact ih hafter hrest
      · cases middle with
        | nil =>
            have hnext : pieces.flatten = [] ++ '<' :: after := hafter.symm
            exact ih hnext hrest
        | cons c middle =>
            obtain ⟨rfl, hafter⟩ := List.cons_eq_cons.mp hafter
            rcases hpieces piece List.mem_cons_self with hinert | htag
            · exact absurd (hinert '<' (by simp [hpiece])) (by decide)
            · obtain ⟨inner, hinner, hfree⟩ := htags piece htag
              -- The sign is the first of the tag, since the tag has no other.
              have hbefore : before = [] := by
                cases before with
                | nil => rfl
                | cons d before =>
                    rw [hinner, List.cons_append] at hpiece
                    exact absurd (by simp [(List.cons_eq_cons.mp hpiece).2]) hfree
              refine ⟨piece, htag, ?_⟩
              rw [hpiece, hbefore, hafter]
              exact ⟨pieces.flatten, by simp⟩

end Markup

/-- A tag of the vocabulary without attributes. -/
def IsPlain (tag : List Char) : Prop :=
  ∃ form ∈ forms, form.opening [] = tag ∨ form.void = false ∧ form.closing = tag

instance (tag : List Char) : Decidable (IsPlain tag) :=
  inferInstanceAs (Decidable (∃ form ∈ forms, form.opening [] = tag ∨ form.void = false ∧ form.closing = tag))

theorem IsPlain.vocabulary {tag : List Char} (h : IsPlain tag) : Vocabulary tag := by
  obtain ⟨form, hform, rfl | ⟨hvoid, rfl⟩⟩ := h
  · exact .opening hform (by simp)
  · exact .closing hform hvoid

theorem markup_plain {text : List Char} (words : List String) (htext : (words.map String.toList).flatten = text)
    (h : ∀ word ∈ words, Inert word.toList ∨ IsPlain word.toList) : Markup Vocabulary text :=
  (Markup.of_words words htext h).mono fun _ => IsPlain.vocabulary

/-! ### Writing -/

namespace Writer

theorem output_put (w : Writer) (chars : List Char) : (w.put chars).output = w.output ++ chars := by
  unfold put
  split_ifs with hempty
  · rw [List.isEmpty_iff.mp hempty, List.append_nil]
  · simp [output]

/-- A block starts on a line of its own: a line feed may come before it. -/
theorem output_putBlock (w : Writer) (opening : String) :
    ∃ lead, Inert lead ∧ (w.putBlock opening).output = w.output ++ (lead ++ opening.toList) := by
  unfold putBlock
  split_ifs
  · exact ⟨[], by decide, output_put w _⟩
  · exact ⟨['\n'], by decide, by rw [output_put, output_put, List.append_assoc]⟩

/-- What a writer added to its output has a property. -/
def Added (p : List Char → Prop) (w left : Writer) : Prop := ∃ piece, left.output = w.output ++ piece ∧ p piece

variable {w : Writer} {p : List Char → Prop}

theorem added_put {chars : List Char} (h : p chars) : w.Added p (w.put chars) := ⟨chars, output_put w chars, h⟩

theorem added_putBlock {opening : String} (h : Markup Vocabulary opening.toList) :
    w.Added (Markup Vocabulary) (w.putBlock opening) := by
  obtain ⟨lead, hlead, houtput⟩ := output_putBlock w opening
  exact ⟨_, houtput, (Markup.of_inert hlead).append h⟩

end Writer

open Writer

theorem isPlain_heading {level : Nat} (h : IsLevel level) :
    IsPlain ("<h" ++ number level ++ ">").toList ∧ IsPlain ("</h" ++ number level ++ ">").toList := by
  have hall : ∀ level < 7, 1 ≤ level →
      IsPlain ("<h" ++ number level ++ ">").toList ∧ IsPlain ("</h" ++ number level ++ ">").toList := by decide
  exact hall level (Nat.lt_succ_of_le h.2) h.1

/-- A tag by the way it is written. -/
theorem vocabulary_opening (form : Form) (attributes : List (String × List Char)) {tag : List Char}
    (hform : form ∈ forms) (hattributes : ∀ pair ∈ attributes, pair.1 ∈ form.keys ∧ Quoted pair.2)
    (htag : form.opening attributes = tag) : Vocabulary tag := htag ▸ .opening hform hattributes

/-- A title is one attribute, or none. -/
theorem titleAttribute_eq (title : List Char) :
    ∃ attributes : List (String × List Char), attributes.flatMap attributeText = titleAttribute title ∧
      ∀ pair ∈ attributes, pair.1 = "title" ∧ Quoted pair.2 := by
  unfold titleAttribute
  split_ifs
  · exact ⟨[], rfl, by simp⟩
  · refine ⟨[("title", escapeAttribute title)], ?_, by simp [escapeAttribute_quoted]⟩
    simp [attributeText]

theorem vocabulary_link (target : Target) :
    Vocabulary ("<a href=\"".toList ++ escapeHref target.destination ++ ['"'] ++ titleAttribute target.title ++ ['>']) := by
  obtain ⟨attributes, hattributes, htitle⟩ := titleAttribute_eq target.title
  apply vocabulary_opening ⟨"a", ["href", "title"], false⟩ (("href", escapeHref target.destination) :: attributes) (by decide)
  · rw [List.forall_mem_cons]
    refine ⟨⟨by simp, escapeHref_quoted _⟩, fun pair hpair => ⟨?_, (htitle pair hpair).2⟩⟩
    simp [(htitle pair hpair).1]
  · simp [Form.opening, attributeText, hattributes]

theorem vocabulary_image (target : Target) (inner : List Event) :
    Vocabulary ("<img src=\"".toList ++ escapeHref target.destination ++ "\" alt=\"".toList ++ description inner ++ ['"'] ++
      titleAttribute target.title ++ " />".toList) := by
  obtain ⟨attributes, hattributes, htitle⟩ := titleAttribute_eq target.title
  apply vocabulary_opening ⟨"img", ["src", "alt", "title"], true⟩
    (("src", escapeHref target.destination) :: ("alt", description inner) :: attributes) (by decide)
  · rw [List.forall_mem_cons, List.forall_mem_cons]
    refine ⟨⟨by simp, escapeHref_quoted _⟩, ⟨by simp, description_quoted inner⟩,
      fun pair hpair => ⟨?_, (htitle pair hpair).2⟩⟩
    simp [(htitle pair hpair).1]
  · simp [Form.opening, attributeText, hattributes]

theorem vocabulary_code (language : List Char) :
    Vocabulary ("<code class=\"language-".toList ++ escapeAttribute language ++ "\">".toList) := by
  have hvalue : Quoted ("language-".toList ++ escapeAttribute language) :=
    Avoids.append (by decide) (escapeAttribute_quoted language)
  apply vocabulary_opening ⟨"code", ["class"], false⟩ [("class", "language-".toList ++ escapeAttribute language)] (by decide)
  · rw [List.forall_mem_singleton]
    exact ⟨by simp, hvalue⟩
  · simp [Form.opening, attributeText]

theorem vocabulary_list (start : Nat) : Vocabulary ("<ol start=\"" ++ number start ++ "\">").toList := by
  apply vocabulary_opening ⟨"ol", ["start"], false⟩ [("start", (number start).toList)] (by decide)
  · rw [List.forall_mem_singleton]
    exact ⟨by simp, number_quoted start⟩
  · simp [Form.opening, attributeText]

/-- The attributes of a table cell. -/
def cellAttributes : Alignment → List (String × List Char)
  | .none => []
  | .left => [("style", "text-align: left".toList)]
  | .center => [("style", "text-align: center".toList)]
  | .right => [("style", "text-align: right".toList)]

theorem vocabulary_cell (head : Bool) (alignment : Alignment) :
    Vocabulary ((if head then "<th" else "<td") ++ alignmentStyle alignment).toList := by
  have hattributes : ∀ pair ∈ cellAttributes alignment, pair.1 ∈ ["style"] ∧ Quoted pair.2 := by
    cases alignment <;> decide
  cases head with
  | false =>
      apply vocabulary_opening ⟨"td", ["style"], false⟩ (cellAttributes alignment) (by decide) hattributes
      cases alignment <;> decide
  | true =>
      apply vocabulary_opening ⟨"th", ["style"], false⟩ (cellAttributes alignment) (by decide) hattributes
      cases alignment <;> decide

/-- The tags that open an element. -/
theorem added_enter (w : Writer) {element : Element} (h : element.Proper) :
    w.Added (Markup Vocabulary) (enter w element) := by
  cases element with
  | paragraph => exact added_putBlock (markup_plain ["<p>"] (by decide) (by decide))
  | heading level => exact added_putBlock (Markup.of_tag (isPlain_heading h).1.vocabulary)
  | quote => exact added_putBlock (markup_plain ["<blockquote>", "\n"] (by decide) (by decide))
  | code language =>
      cases language with
      | none => exact added_putBlock (markup_plain ["<pre>", "<code>"] (by decide) (by decide))
      | some language =>
          rw [enter]
          split_ifs
          · exact added_putBlock (markup_plain ["<pre>", "<code>"] (by decide) (by decide))
          · obtain ⟨lead, hlead, houtput⟩ := output_putBlock w "<pre><code class=\"language-"
            have htag := Markup.of_tag (vocabulary_code language)
            have hpre : Markup Vocabulary "<pre>".toList := markup_plain ["<pre>"] (by decide) (by decide)
            refine ⟨_, ?_, (Markup.of_inert hlead).append (hpre.append htag)⟩
            rw [output_put, output_put, houtput]
            simp
  | html => exact ⟨[], (List.append_nil _).symm, Markup.of_inert (by decide)⟩
  | list start =>
      cases start with
      | none => exact added_putBlock (markup_plain ["<ul>", "\n"] (by decide) (by decide))
      | some n =>
          rw [enter]
          split_ifs
          · exact added_putBlock (markup_plain ["<ol>", "\n"] (by decide) (by decide))
          · have htext : ("<ol start=\"" ++ number n ++ "\">\n").toList =
                ("<ol start=\"" ++ number n ++ "\">").toList ++ ['\n'] := by simp
            apply added_putBlock
            rw [htext]
            exact (Markup.of_tag (vocabulary_list n)).append (.of_inert (by decide))
  | item => exact added_putBlock (markup_plain ["<li>"] (by decide) (by decide))
  | table => exact added_put (markup_plain ["<table>"] (by decide) (by decide))
  | tableHead => exact added_put (markup_plain ["<thead>", "<tr>"] (by decide) (by decide))
  | tableRow => exact added_put (markup_plain ["<tr>"] (by decide) (by decide))
  | tableCell head alignment => exact added_put (Markup.of_tag (vocabulary_cell head alignment))
  | emphasis => exact added_put (markup_plain ["<em>"] (by decide) (by decide))
  | strong => exact added_put (markup_plain ["<strong>"] (by decide) (by decide))
  | link target => exact added_put (Markup.of_tag (vocabulary_link target))

/-- The tags that close an element. -/
theorem added_leave (w : Writer) {element : Element} (h : element.Proper) :
    w.Added (Markup Vocabulary) (leave w element) := by
  cases element with
  | paragraph => exact added_put (markup_plain ["</p>", "\n"] (by decide) (by decide))
  | heading level =>
      have htext : ("</h" ++ number level ++ ">\n").toList = ("</h" ++ number level ++ ">").toList ++ ['\n'] := by simp
      rw [leave, htext]
      exact added_put ((Markup.of_tag (isPlain_heading h).2.vocabulary).append (.of_inert (by decide)))
  | quote => exact added_put (markup_plain ["</blockquote>", "\n"] (by decide) (by decide))
  | code language => exact added_put (markup_plain ["</code>", "</pre>", "\n"] (by decide) (by decide))
  | html => exact ⟨[], (List.append_nil _).symm, Markup.of_inert (by decide)⟩
  | list start =>
      cases start with
      | none => exact added_put (markup_plain ["</ul>", "\n"] (by decide) (by decide))
      | some n => exact added_put (markup_plain ["</ol>", "\n"] (by decide) (by decide))
  | item => exact added_put (markup_plain ["</li>", "\n"] (by decide) (by decide))
  | table => exact added_put (markup_plain ["</tbody>", "</table>", "\n"] (by decide) (by decide))
  | tableHead => exact added_put (markup_plain ["</tr>", "</thead>", "<tbody>", "\n"] (by decide) (by decide))
  | tableRow => exact added_put (markup_plain ["</tr>", "\n"] (by decide) (by decide))
  | tableCell head alignment =>
      cases head with
      | false => exact added_put (markup_plain ["</td>"] (by decide) (by decide))
      | true => exact added_put (markup_plain ["</th>"] (by decide) (by decide))
  | emphasis => exact added_put (markup_plain ["</em>"] (by decide) (by decide))
  | strong => exact added_put (markup_plain ["</strong>"] (by decide) (by decide))
  | link target => exact added_put (markup_plain ["</a>"] (by decide) (by decide))

/-- What an event may add to a page. Text and raw HTML add themselves with their marks escaped, which is inert;
the other events add tags of the vocabulary too. -/
def Adds : Event → List Char → Prop
  | .text chars | .html chars => fun piece => piece = escapeBody chars ∧ Inert piece
  | .softBreak => Inert
  | _ => Markup Vocabulary

/-- One step of the writer, if the event is not raw HTML. -/
theorem added_write (w : Writer) {event : Event} (h : event.Proper) (hraw : ∀ chars, event ≠ .html chars) :
    w.Added (Adds event) (write w event) := by
  cases event with
  | enter element => exact added_enter w h
  | leave element => exact added_leave w h
  | text chars => exact added_put ⟨rfl, escapeBody_inert chars⟩
  | code chars =>
      have hopen : Markup Vocabulary "<code>".toList := markup_plain ["<code>"] (by decide) (by decide)
      have hclose : Markup Vocabulary "</code>".toList := markup_plain ["</code>"] (by decide) (by decide)
      exact added_put ((hopen.append (.of_inert (escapeBody_inert chars))).append hclose)
  | html chars => exact absurd rfl (hraw chars)
  | softBreak => exact added_put (p := Inert) (by decide)
  | hardBreak => exact added_put (markup_plain ["<br />", "\n"] (by decide) (by decide))
  | rule => exact added_putBlock (markup_plain ["<hr />", "\n"] (by decide) (by decide))
  | image target inner => exact added_put (Markup.of_tag (vocabulary_image target inner))

/-- A run of the writer: every event adds a piece of its own. -/
theorem added_foldl (w : Writer) {found : List Event} (h : ∀ event ∈ found, event.Proper)
    (hraw : ∀ event ∈ found, ∀ chars, event ≠ .html chars) :
    ∃ pieces, (found.foldl write w).output = w.output ++ pieces.flatten ∧ List.Forall₂ Adds found pieces := by
  induction found generalizing w with
  | nil => exact ⟨[], by simp, .nil⟩
  | cons event rest ih =>
      obtain ⟨piece, houtput, hadds⟩ := added_write w (h event List.mem_cons_self) (hraw event List.mem_cons_self)
      obtain ⟨pieces, hrest, hpieces⟩ := ih (write w event)
        (fun other hother => h other (List.mem_cons_of_mem event hother))
        (fun other hother => hraw other (List.mem_cons_of_mem event hother))
      refine ⟨piece :: pieces, ?_, .cons hadds hpieces⟩
      rw [List.foldl_cons, hrest, houtput, List.flatten_cons, List.append_assoc]

theorem Adds.markup {event : Event} {piece : List Char} (h : Adds event piece) : Markup Vocabulary piece := by
  cases event with
  | text | html => exact .of_inert h.2
  | softBreak => exact .of_inert h
  | enter | leave | code | hardBreak | rule | image => exact h

theorem markup_of_adds {found : List Event} {pieces : List (List Char)} (h : List.Forall₂ Adds found pieces) :
    Markup Vocabulary pieces.flatten := by
  induction h with
  | nil => exact .of_inert (by decide)
  | cons hadds _ ih =>
      rw [List.flatten_cons]
      exact hadds.markup.append ih

end RouteBook.Markdown.Html
