import Mathlib
import RouteBook.Proofs.Json.Printing
import RouteBook.Proofs.Routes.Sections

/-! What can be read back from a page. The first line gives the title, and each section the texts of its route, one line
each; the body of a sample ends at the first line that closes its fence, which no line of a JSON sample does. So pages that
are equal show the same routes. And the body of a JSON sample is read as the value it shows. -/

namespace RouteBook.Routes

open Json (Value)

variable {title other : String} {routes others : List Route} {route another : Route}

/-! ### Lines of a page -/

/-- A route whose texts are one line each, the method one word, and whose sample, if it is a text, has no line that closes
its fence. -/
structure Legible (route : Route) : Prop where
  word : ' ' ∉ route.method.toList
  method : '\n' ∉ route.method.toList
  path : '\n' ∉ route.path.toList
  function : '\n' ∉ route.function.toList
  description : '\n' ∉ route.description.toList
  sample : ∀ body, route.sample = .text body → closingLine ∉ Text.pieces '\n' body.toList

/-- No line of a JSON sample closes its fence. -/
theorem closingLine_not_mem_pretty (value : Value) : closingLine ∉ Text.pieces '\n' value.pretty.toList := by
  intro hmem
  obtain ⟨n, c, more, hpiece, hc⟩ := value.pieces_pretty hmem
  cases n with
  | zero =>
      obtain ⟨rfl, -⟩ := List.cons_eq_cons.mp hpiece
      exact absurd hc (by decide)
  | succ n => exact absurd (List.cons_eq_cons.mp hpiece).1 (by decide)

theorem Legible.closingLine_not_mem (h : Legible route) :
    closingLine ∉ Text.pieces '\n' route.sample.fenced.2.toList := by
  cases hsample : route.sample with
  | json value => exact closingLine_not_mem_pretty value
  | text body => exact h.sample body hsample
  | placeholder => decide

theorem pieces_flatMap {lines : List (List Char)} (h : ∀ line ∈ lines, '\n' ∉ line) (rest : List Char) :
    Text.pieces '\n' ((lines.flatMap fun line => line ++ ['\n']) ++ rest) = lines ++ Text.pieces '\n' rest := by
  induction lines with
  | nil => rfl
  | cons line lines ih =>
      rw [List.forall_mem_cons] at h
      rw [List.flatMap_cons, List.append_assoc, List.append_assoc, List.singleton_append, Text.pieces_append,
        Text.pieces_of_not_mem h.1, ih h.2]
      rfl

theorem pieces_section (h : Legible route) (rest : List Char) :
    Text.pieces '\n' (route.section.toList ++ rest) = openingLines route ++
      (Text.pieces '\n' route.sample.fenced.2.toList ++ closingLine :: [] :: Text.pieces '\n' rest) := by
  have hopening := not_mem_openingLines (by decide) h.method h.path h.function h.description
  have hclosing : Text.pieces '\n' ((closingLine ++ ['\n', '\n']) ++ rest) = [closingLine, []] ++ Text.pieces '\n' rest :=
    pieces_flatMap (by decide : ∀ line ∈ [closingLine, []], '\n' ∉ line) rest
  rw [toList_section, List.append_assoc, pieces_flatMap hopening, List.append_assoc, List.cons_append,
    Text.pieces_append, hclosing]
  rfl

theorem pieces_markdown (htitle : '\n' ∉ title.toList) (routes : List Route) :
    Text.pieces '\n' (markdown title routes).toList =
      ('#' :: titleText title) :: [] :: Text.pieces '\n' (routes.flatMap fun route => route.section.toList) := by
  have hfirst : '\n' ∉ '#' :: titleText title := by
    simp only [titleText, List.mem_cons, List.mem_append, not_or]
    exact ⟨by decide, by decide, ⟨by decide, htitle⟩, by decide, by simp⟩
  have hlines : ∀ line ∈ ['#' :: titleText title, []], '\n' ∉ line := by simp [hfirst]
  rw [toList_markdown]
  simpa using pieces_flatMap hlines (routes.flatMap fun route => route.section.toList)

/-! ### Equal pages -/

/-- Where a list goes on with a value that its front does not hold, the front is determined. -/
theorem append_cons_inj_of_not_mem {α : Type} {x : α} {front front' back back' : List α} (hfront : x ∉ front)
    (hfront' : x ∉ front') (h : front ++ x :: back = front' ++ x :: back') : front = front' ∧ back = back' := by
  induction front generalizing front' with
  | nil =>
      cases front' with
      | nil => exact ⟨rfl, (List.cons_eq_cons.mp h).2⟩
      | cons y front' => exact absurd (List.cons_eq_cons.mp h).1 (List.ne_of_not_mem_cons hfront')
  | cons y front ih =>
      cases front' with
      | nil => exact absurd (List.cons_eq_cons.mp h).1.symm (List.ne_of_not_mem_cons hfront)
      | cons z front' =>
          obtain ⟨rfl, hrest⟩ := List.cons_eq_cons.mp h
          obtain ⟨rfl, rfl⟩ := ih (List.not_mem_of_not_mem_cons hfront) (List.not_mem_of_not_mem_cons hfront') hrest
          exact ⟨rfl, rfl⟩

theorem eq_of_pieces_eq {text text' : List Char} (h : Text.pieces '\n' text = Text.pieces '\n' text') :
    text = text' := by
  have hfeeds : text ++ ['\n'] = text' ++ ['\n'] := by rw [← Text.flatMap_pieces, h, Text.flatMap_pieces]
  exact List.append_cancel_right hfeeds

/-- Two routes with the same texts and the same sample in the fence. -/
structure ShownAlike (route another : Route) : Prop where
  method : route.method = another.method
  path : route.path = another.path
  function : route.function = another.function
  description : route.description = another.description
  language : route.sample.fenced.1 = another.sample.fenced.1
  body : route.sample.fenced.2 = another.sample.fenced.2

theorem shownAlike_of_openingLines (h : Legible route) (h' : Legible another)
    (hlines : openingLines route = openingLines another) (hbody : route.sample.fenced.2 = another.sample.fenced.2) :
    ShownAlike route another := by
  simp only [openingLines, List.append_assoc, List.cons.injEq, List.append_cancel_left_eq, true_and, and_true,
    String.toList_inj] at hlines
  obtain ⟨hheading, hfunction, hdescription, hlanguage⟩ := hlines
  obtain ⟨hmethod, hpath⟩ := append_cons_inj_of_not_mem h.word h'.word hheading
  exact ⟨String.toList_inj.mp hmethod, String.toList_inj.mp hpath, hfunction, hdescription, hlanguage, hbody⟩

/-- The sections of legible routes, cut into lines, give these routes again. -/
theorem shownAlike_of_sections (h : ∀ route ∈ routes, Legible route) (h' : ∀ route ∈ others, Legible route)
    (hpieces : Text.pieces '\n' (routes.flatMap fun route => route.section.toList) =
      Text.pieces '\n' (others.flatMap fun route => route.section.toList)) : List.Forall₂ ShownAlike routes others := by
  -- a section starts with a heading, so no page ends where another one goes on
  have hempty : ∀ (route : Route) (rest : List (List Char)), Text.pieces '\n' [] ≠ openingLines route ++ rest := by
    intro route rest heq
    exact absurd (congrArg List.head? heq) (by simp [Text.pieces, openingLines])
  induction routes generalizing others with
  | nil =>
      cases others with
      | nil => exact .nil
      | cons another others =>
          rw [List.flatMap_cons, pieces_section (h' another List.mem_cons_self)] at hpieces
          exact absurd hpieces (hempty another _)
  | cons route routes ih =>
      rw [List.forall_mem_cons] at h
      rw [List.flatMap_cons, pieces_section h.1] at hpieces
      cases others with
      | nil => exact absurd hpieces.symm (hempty route _)
      | cons another others =>
          rw [List.forall_mem_cons] at h'
          rw [List.flatMap_cons, pieces_section h'.1] at hpieces
          obtain ⟨hlines, hrest⟩ := List.append_inj hpieces rfl
          obtain ⟨hbody, hrest⟩ :=
            append_cons_inj_of_not_mem h.1.closingLine_not_mem h'.1.closingLine_not_mem hrest
          have hbody := String.toList_inj.mp (eq_of_pieces_eq hbody)
          exact .cons (shownAlike_of_openingLines h.1 h'.1 hlines hbody) (ih h.2 h'.2 (List.cons_eq_cons.mp hrest).2)

/-- A page can be read back: if two pages with titles of one line and legible routes are equal, their titles are equal, and
they show the same routes one after another. JSON samples may be any, since none of their lines closes the fence. -/
theorem markdown_recovered (htitle : '\n' ∉ title.toList) (hother : '\n' ∉ other.toList)
    (h : ∀ route ∈ routes, Legible route) (h' : ∀ route ∈ others, Legible route)
    (hpages : markdown title routes = markdown other others) :
    title = other ∧ routes.length = others.length ∧ List.Forall₂ ShownAlike routes others ∧
      ∀ route ∈ routes, ∀ value, route.sample = .json value →
        closingLine ∉ Text.pieces '\n' route.sample.fenced.2.toList := by
  have hpieces := congrArg (fun page => Text.pieces '\n' page.toList) hpages
  simp only [pieces_markdown htitle, pieces_markdown hother, List.cons.injEq, true_and] at hpieces
  obtain ⟨hfirst, hsections⟩ := hpieces
  have halike := shownAlike_of_sections h h' hsections
  have hequal : title.toList = other.toList := by simpa [titleText] using hfirst
  exact ⟨String.toList_inj.mp hequal, halike.length_eq, halike, fun route hroute _ _ => (h route hroute).closingLine_not_mem⟩

def probe (sample : Sample) : Route := ⟨"GET", "/a b", "read", "", sample⟩

/-- A placeholder and the value it stands for give one page. -/
theorem markdown_recovered_status :
    markdown "a)" [probe .placeholder] = markdown "a)" [probe (.json (.obj [("status", .str "ok")]))] ∧
      List.Forall₂ ShownAlike [probe .placeholder] [probe (.json (.obj [("status", .str "ok")]))] := by
  have hpages : markdown "a)" [probe .placeholder] = markdown "a)" [probe (.json (.obj [("status", .str "ok")]))] := by
    decide
  refine ⟨hpages, (markdown_recovered (by decide) (by decide) ?_ ?_ hpages).2.2.1⟩
  · rw [List.forall_mem_singleton]
    exact ⟨by decide, by decide, by decide, by decide, by decide, fun body hbody => nomatch hbody⟩
  · rw [List.forall_mem_singleton]
    exact ⟨by decide, by decide, by decide, by decide, by decide, fun body hbody => nomatch hbody⟩

/-! ### Samples -/

/-- The body of a JSON sample is read as the value it was made from, if this value was read from a text and its numbers are
integers. It holds no control characters but line feeds. -/
theorem sample_recovered {text : String} {value : Value} (hparse : Value.parse text = .ok value)
    (hint : value.Integral) :
    (Sample.json value).fenced.1 = "json" ∧ Value.parse (Sample.json value).fenced.2 = .ok value ∧
      ∀ c ∈ (Sample.json value).fenced.2.toList, c.toNat < 0x20 → c = '\n' := by
  refine ⟨rfl, Value.parse_pretty (Value.canonical_of_parse hparse) hint, fun c hc hlow => ?_⟩
  rw [Sample.fenced, Value.pretty, String.toList_ofList] at hc
  exact (Value.printed_prettyChars 0 value c hc).resolve_left (not_le.mpr hlow)

/-- A value with the largest integer, a control character and one that takes two escapes. -/
def extremes : Value := .obj [("", .arr [.num (.int 18446744073709551615)]), ("\u0001😀", .str "/\"\n"), ("b", .obj [])]

theorem sample_recovered_extremes : Value.parse (Sample.json extremes).fenced.2 = .ok extremes := by
  have hparse : Value.parse ("\x7b\"b\":\x7b \x7d, \"\":1,\"\\u0001\\ud83d\\ude00\":\"\\/\\\"\\n\"," ++
      "\n \"\" :[18446744073709551615]\x7d") = .ok extremes := by cbv
  have hint : extremes.Integral := by
    simp [Value.Integral, extremes, Value.numbers, Value.memberNumbers, Value.itemNumbers, Json.Number.Integral]
  exact (sample_recovered hparse hint).2.1

end RouteBook.Routes
