import RouteBook.Proofs.Text.Words
import RouteBook.Routes.Basic

/-! Descriptions of routes. A description is a tidy line made of words of the summary and of the description, and it
stays as it is when it is described again. The summary is left out where the description starts with it, character for
character. Where it stands in the description in another spelling it is repeated, and where it ends inside a word of the
description it is lost. -/

namespace RouteBook.Routes

open Text (words trim isBlank spaced IsGap IsWord Tidy)

variable {summary description : Option String} {s d : List Char}

/-! ### The words of a description -/

/-- The words that a summary and a description are put together from. -/
def described (s d : List Char) : List (List Char) :=
  if trim s <+: trim d then words d else words s ++ words d

theorem described_of_start (h : trim s <+: trim d) : described s d = words d := if_pos h

theorem described_of_not_start (h : ¬trim s <+: trim d) : described s d = words s ++ words d := if_neg h

theorem mem_words_of_mem_described {word : List Char} (h : word ∈ described s d) : word ∈ words s ∨ word ∈ words d := by
  unfold described at h
  split_ifs at h
  · exact Or.inr h
  · exact List.mem_append.mp h

theorem isWord_of_mem_described {word : List Char} (h : word ∈ described s d) : IsWord word :=
  (mem_words_of_mem_described h).elim Text.isWord_of_mem_words Text.isWord_of_mem_words

theorem described_eq_nil_iff : described s d = [] ↔ IsGap s ∧ IsGap d := by
  rw [described, ← Text.words_eq_nil_iff, ← Text.words_eq_nil_iff]
  split_ifs with hstart
  · -- A summary at the start of nothing is nothing itself.
    refine ⟨fun hd => ⟨?_, hd⟩, And.right⟩
    rw [Text.words_eq_nil_iff, ← Text.trim_eq_nil_iff] at hd
    rw [hd, List.prefix_nil, Text.trim_eq_nil_iff, ← Text.words_eq_nil_iff] at hstart
    exact hstart
  · exact List.append_eq_nil_iff

/-- The characters of a text that may be missing. -/
def charsOf (text : Option String) : List Char := (text.getD "").toList

theorem charsOf_none : charsOf none = [] := rfl

theorem charsOf_some (text : String) : charsOf (some text) = text.toList := rfl

theorem exists_of_mem_words_charsOf {text : Option String} {word : List Char} (h : word ∈ words (charsOf text)) :
    ∃ found ∈ text, word ∈ words found.toList := by
  cases text with
  | none =>
      rw [charsOf_none, Text.words_nil] at h
      cases h
  | some found => exact ⟨found, rfl, h⟩

theorem substance_cases (text : Option String) :
    (trim (charsOf text) = [] ∧ substance text = none) ∨
    (trim (charsOf text) ≠ [] ∧ substance text = some (trim (charsOf text))) := by
  cases text with
  | none => exact Or.inl ⟨rfl, rfl⟩
  | some text =>
      cases htrim : trim text.toList with
      | nil => exact Or.inl ⟨htrim, by simp [substance, htrim]⟩
      | cons c rest => exact Or.inr ⟨by simp [charsOf, htrim], by simp [substance, charsOf, htrim]⟩

theorem toList_intercalate_words (parts : List (List Char)) :
    (String.intercalate " " (parts.map String.ofList)).toList = spaced parts := by
  have hparts : (parts.map String.ofList).map String.toList = parts := by simp [Function.comp_def]
  rw [String.toList_intercalate, hparts]
  rfl

/-- What a summary and a description are described as. -/
theorem toList_describe (summary description : Option String) :
    (describe summary description).toList =
      if described (charsOf summary) (charsOf description) = [] then noDescription.toList
      else spaced (described (charsOf summary) (charsOf description)) := by
  obtain ⟨hs, hsummary⟩ | ⟨hs, hsummary⟩ := substance_cases summary <;>
    obtain ⟨hd, hdescription⟩ | ⟨hd, hdescription⟩ := substance_cases description <;>
    simp only [describe, hsummary, hdescription, toList_intercalate_words]
  · rw [if_pos (described_eq_nil_iff.mpr ⟨Text.trim_eq_nil_iff.mp hs, Text.trim_eq_nil_iff.mp hd⟩)]
  · have hstart : trim (charsOf summary) <+: trim (charsOf description) := by rw [hs]; exact List.nil_prefix
    rw [described_of_start hstart, Text.words_trim, if_neg]
    rwa [Text.words_eq_nil_iff, ← Text.trim_eq_nil_iff]
  · have hstart : ¬trim (charsOf summary) <+: trim (charsOf description) := by rwa [hd, List.prefix_nil]
    have hnone : words (charsOf description) = [] := Text.words_eq_nil_iff.mpr (Text.trim_eq_nil_iff.mp hd)
    rw [described_of_not_start hstart, hnone, List.append_nil, Text.words_trim, if_neg]
    rwa [Text.words_eq_nil_iff, ← Text.trim_eq_nil_iff]
  · rw [if_neg fun h => hd (Text.trim_eq_nil_iff.mpr (described_eq_nil_iff.mp h).2)]
    by_cases hstart : trim (charsOf summary) <+: trim (charsOf description)
    · rw [if_pos (List.isPrefixOf_iff_prefix.mpr hstart), described_of_start hstart, Text.words_trim]
    · rw [if_neg (by rwa [List.isPrefixOf_iff_prefix]), described_of_not_start hstart,
        Text.words_append_blank (by decide), Text.words_trim, Text.words_trim]

theorem toList_describe_of_ne_nil (h : described (charsOf summary) (charsOf description) ≠ []) :
    (describe summary description).toList = spaced (described (charsOf summary) (charsOf description)) := by
  rw [toList_describe, if_neg h]

theorem words_describe (h : described (charsOf summary) (charsOf description) ≠ []) :
    words (describe summary description).toList = described (charsOf summary) (charsOf description) := by
  rw [toList_describe_of_ne_nil h, Text.words_spaced fun word => isWord_of_mem_described]

/-- A description is made of words, whatever it was made from. -/
theorem exists_words_describe (summary description : Option String) :
    ∃ parts, parts ≠ [] ∧ (∀ word ∈ parts, IsWord word) ∧ (describe summary description).toList = spaced parts := by
  by_cases hnone : described (charsOf summary) (charsOf description) = []
  · refine ⟨words noDescription.toList, ?_, fun word => Text.isWord_of_mem_words, ?_⟩
    · intro hgap
      exact absurd (Text.words_eq_nil_iff.mp hgap 'N' (by decide)) (by decide)
    · rw [toList_describe, if_pos hnone]
      cbv
  · exact ⟨_, hnone, fun word => isWord_of_mem_described, toList_describe_of_ne_nil hnone⟩

/-- A text that is described as its own words. -/
theorem describe_eq_self {text : String} {parts : List (List Char)} (hne : parts ≠ []) (htext : text.toList = spaced parts)
    (h : described (charsOf summary) (charsOf description) = parts) : describe summary description = text := by
  apply String.toList_injective
  rw [toList_describe_of_ne_nil (h ▸ hne), h, htext]

/-! ### Tidy lines -/

/-- No text, or nothing but blanks. -/
def Void (text : Option String) : Prop := ∀ found ∈ text, IsGap found.toList

theorem void_iff {text : Option String} : Void text ↔ IsGap (charsOf text) := by
  cases text <;> simp [Void, charsOf, IsGap]

theorem tidy_describe (summary description : Option String) : Tidy (describe summary description).toList := by
  obtain ⟨parts, hne, hparts, hlist⟩ := exists_words_describe summary description
  exact hlist ▸ Text.tidy_spaced hne hparts

/-- A description is one tidy line. Without a summary and a description it says so; otherwise all its words come from
them. Described again, alone or beside itself, it stays as it is. -/
theorem describe_tidy (summary description : Option String) :
    (Void summary ∧ Void description → describe summary description = noDescription) ∧
    (¬(Void summary ∧ Void description) → words (describe summary description).toList ≠ [] ∧
      ∀ word ∈ words (describe summary description).toList,
        ∃ text, (text ∈ summary ∨ text ∈ description) ∧ word ∈ words text.toList) ∧
    Tidy (describe summary description).toList ∧
    describe (some (describe summary description)) none = describe summary description ∧
    describe none (some (describe summary description)) = describe summary description ∧
    describe (some (describe summary description)) (some (describe summary description)) =
      describe summary description := by
  obtain ⟨parts, hne, hparts, hlist⟩ := exists_words_describe summary description
  have hwords : words (describe summary description).toList = parts := by rw [hlist, Text.words_spaced hparts]
  have htidy := tidy_describe summary description
  have hvoid : Void summary ∧ Void description ↔ described (charsOf summary) (charsOf description) = [] := by
    rw [described_eq_nil_iff, void_iff, void_iff]
  refine ⟨fun h => ?_, fun h => ⟨hwords ▸ hne, fun word hword => ?_⟩, htidy, ?_, ?_, ?_⟩
  · apply String.toList_injective
    rw [toList_describe, if_pos (hvoid.mp h)]
  · rw [hvoid] at h
    rw [words_describe h] at hword
    rcases mem_words_of_mem_described hword with hword | hword
    · obtain ⟨text, htext, hword⟩ := exists_of_mem_words_charsOf hword
      exact ⟨text, Or.inl htext, hword⟩
    · obtain ⟨text, htext, hword⟩ := exists_of_mem_words_charsOf hword
      exact ⟨text, Or.inr htext, hword⟩
  · refine describe_eq_self hne hlist (Eq.trans (described_of_not_start ?_) ?_)
    · rw [charsOf_none, charsOf_some, Text.trim_of_edges htidy.lead htidy.tail, Text.trim_nil, List.prefix_nil]
      exact htidy.ne_nil
    · rw [charsOf_none, charsOf_some, Text.words_nil, List.append_nil, hwords]
  · refine describe_eq_self hne hlist ((described_of_start ?_).trans hwords)
    rw [charsOf_none, Text.trim_nil]
    exact List.nil_prefix
  · exact describe_eq_self hne hlist ((described_of_start (List.prefix_refl _)).trans hwords)

example : describe (some "\u3000a\n\n b ") (some "\t") = "a b" := by
  cbv

/-! ### Summaries and descriptions together -/

/-- A summary that stands at the start of a description and ends inside a word of it. -/
def EndsInside (s d : List Char) : Prop := ∃ c rest, trim d = trim s ++ c :: rest ∧ isBlank c = false

/-- A summary whose words begin the words of a description, but which does not begin the description itself: other
blanks stand between the words. -/
def Respelled (s d : List Char) : Prop := words s <+: words d ∧ ¬trim s <+: trim d

/-- A summary at the start of a description has its words there too, unless it ends inside a word. -/
theorem words_prefix_iff (hs : ¬IsGap s) (hstart : trim s <+: trim d) : words s <+: words d ↔ ¬EndsInside s d := by
  obtain ⟨rest, hrest⟩ := hstart
  rw [← Text.words_trim s, ← Text.words_trim d, ← hrest,
    Text.words_prefix_append_iff (Text.getLast?_trim s) (mt Text.trim_eq_nil_iff.mp hs)]
  constructor
  · rintro hblank ⟨c, more, hsplit, hc⟩
    rw [← hrest, List.append_cancel_left_eq] at hsplit
    have := hblank c (by rw [hsplit]; rfl)
    rw [hc] at this
    cases this
  · intro hinside c hc
    obtain ⟨more, rfl⟩ : ∃ more, rest = c :: more := List.head?_eq_some_iff.mp hc
    by_contra hblank
    exact hinside ⟨c, more, hrest.symm, Bool.eq_false_of_not_eq_true hblank⟩

theorem not_endsInside (h : ¬trim s <+: trim d) : ¬EndsInside s d := by
  rintro ⟨c, rest, hsplit, -⟩
  exact h (hsplit ▸ List.prefix_append _ _)

/-- The words of a summary and a description that are not blank are those of the description alone, if it starts with
the summary, and otherwise those of both. That is the description where its words begin with those of the summary and
both otherwise, if and only if the summary does not end inside a word of the description and does not begin it in
another spelling; and all words of the summary come first if and only if it does not end inside a word. -/
theorem words_describe_iff {summary description : String} (hs : ¬IsGap summary.toList) (hd : ¬IsGap description.toList) :
    words (describe (some summary) (some description)).toList =
      (if trim summary.toList <+: trim description.toList then words description.toList
        else words summary.toList ++ words description.toList) ∧
    (words (describe (some summary) (some description)).toList =
      (if words summary.toList <+: words description.toList then words description.toList
        else words summary.toList ++ words description.toList) ↔
      ¬EndsInside summary.toList description.toList ∧ ¬Respelled summary.toList description.toList) ∧
    (words summary.toList <+: words (describe (some summary) (some description)).toList ↔
      ¬EndsInside summary.toList description.toList) := by
  have hwords : words (describe (some summary) (some description)).toList = described summary.toList description.toList :=
    words_describe fun h : described (charsOf (some summary)) (charsOf (some description)) = [] =>
      hd (described_eq_nil_iff.mp h).2
  have hboth : words description.toList ≠ words summary.toList ++ words description.toList := by
    rw [ne_eq, List.self_eq_append_left, Text.words_eq_nil_iff]
    exact hs
  rw [hwords]
  refine ⟨rfl, ?_, ?_⟩
  · by_cases hstart : trim summary.toList <+: trim description.toList
    · have hspelled : ¬Respelled summary.toList description.toList := fun h => h.2 hstart
      rw [described_of_start hstart, and_iff_left hspelled, ← words_prefix_iff hs hstart]
      split_ifs with hbegins
      · simp [hbegins]
      · simp [hbegins, hboth]
    · rw [described_of_not_start hstart, and_iff_right (not_endsInside hstart), Respelled, and_iff_left hstart]
      split_ifs with hbegins
      · simp [hbegins, hboth.symm]
      · simp [hbegins]
  · by_cases hstart : trim summary.toList <+: trim description.toList
    · rw [described_of_start hstart, words_prefix_iff hs hstart]
    · rw [described_of_not_start hstart]
      exact iff_of_true (List.prefix_append _ _) (not_endsInside hstart)

/-- A summary that the description repeats with a space in the place of a line break is shown twice, and one that is
the first part of a longer word is not shown. -/
theorem words_describe_iff_apart :
    ¬IsGap "List\nusers".toList ∧ ¬IsGap "List users by name".toList ∧ ¬IsGap "List".toList ∧ ¬IsGap "Listed users".toList ∧
    Respelled "List\nusers".toList "List users by name".toList ∧
    describe (some "List\nusers") (some "List users by name") = "List users List users by name" ∧
    words (describe (some "List\nusers") (some "List users by name")).toList ≠
      (if words "List\nusers".toList <+: words "List users by name".toList then words "List users by name".toList
        else words "List\nusers".toList ++ words "List users by name".toList) ∧
    EndsInside "List".toList "Listed users".toList ∧
    describe (some "List") (some "Listed users") = "Listed users" ∧
    ¬words "List".toList <+: words (describe (some "List") (some "Listed users")).toList := by
  have hsolid : ∀ text : String, 'L' ∈ text.toList → ¬IsGap text.toList := fun _ hmem h => absurd (h 'L' hmem) (by decide)
  have hfirst := hsolid "List\nusers" (by decide)
  have hsecond := hsolid "List users by name" (by decide)
  have hthird := hsolid "List" (by decide)
  have hfourth := hsolid "Listed users" (by decide)
  have hrespelled : Respelled "List\nusers".toList "List users by name".toList := by
    have hs : words "List\nusers".toList = ["List".toList, "users".toList] := by cbv
    have hd : words "List users by name".toList = ["List".toList, "users".toList, "by".toList, "name".toList] := by cbv
    exact ⟨by rw [hs, hd]; decide, by decide⟩
  have hinside : EndsInside "List".toList "Listed users".toList := ⟨'e', "d users".toList, rfl, by decide⟩
  refine ⟨hfirst, hsecond, hthird, hfourth, hrespelled, by cbv, ?_, hinside, by cbv, ?_⟩
  · rw [ne_eq, (words_describe_iff hfirst hsecond).2.1]
    exact fun h => h.2 hrespelled
  · rw [(words_describe_iff hthird hfourth).2.2]
    exact not_not.mpr hinside

end RouteBook.Routes
