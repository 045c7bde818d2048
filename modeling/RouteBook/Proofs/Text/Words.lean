import Mathlib.Data.List.DropRight
import Mathlib.Tactic
import RouteBook.Text.Blank

/-! The words of a text. A blank separates the words on its two sides, and blanks at the ends do not count; so a text
and the text without the blanks around it have the same words, and words joined by single spaces are read back. Of two
texts one of which starts with the other, the words do so too unless the shorter one ends inside a word. -/

namespace RouteBook.Text

variable {c : Char} {text front back rest word : List Char} {parts : List (List Char)}

/-! ### Words -/

/-- Something without blanks. -/
structure IsWord (word : List Char) : Prop where
  ne_nil : word ≠ []
  solid : ∀ c ∈ word, isBlank c = false

/-- Nothing but blanks. -/
def IsGap (text : List Char) : Prop := ∀ c ∈ text, isBlank c = true

/-- What stands from a place on up to the next blank. -/
theorem isWord_run (hc : isBlank c = false) (rest : List Char) : IsWord (c :: rest.takeWhile (!isBlank ·)) := by
  refine ⟨List.cons_ne_nil _ _, fun d hd => ?_⟩
  rcases List.mem_cons.mp hd with rfl | hd
  · exact hc
  · simpa using List.mem_takeWhile_imp hd

theorem head?_dropWhile_run (rest : List Char) : ∀ c ∈ (rest.dropWhile (!isBlank ·)).head?, isBlank c = true := by
  intro c hc
  have hstop := List.head?_dropWhile_not (!isBlank ·) rest
  rw [Option.mem_def.mp hc] at hstop
  simpa using hstop

theorem IsWord.append (hword : IsWord word) (hback : IsWord back) : IsWord (word ++ back) := by
  refine ⟨fun h => hword.ne_nil (List.append_eq_nil_iff.mp h).1, fun c hc => ?_⟩
  rcases List.mem_append.mp hc with hc | hc
  · exact hword.solid c hc
  · exact hback.solid c hc

theorem isWord_of_mem_words (h : word ∈ words text) : IsWord word := by
  fun_induction words text with
  | case1 => cases h
  | case2 c rest hblank ih => exact ih h
  | case3 c rest hblank ih =>
      rcases List.mem_cons.mp h with rfl | h
      · exact isWord_run (Bool.eq_false_of_not_eq_true hblank) rest
      · exact ih h

theorem words_nil : words [] = [] := by
  rw [words.eq_def]

theorem words_cons (c : Char) (rest : List Char) :
    words (c :: rest) =
      if isBlank c then words rest else (c :: rest.takeWhile (!isBlank ·)) :: words (rest.dropWhile (!isBlank ·)) := by
  rw [words.eq_def]

theorem words_cons_blank (hc : isBlank c = true) (rest : List Char) : words (c :: rest) = words rest := by
  rw [words_cons, if_pos hc]

/-- A word is followed by a blank or by nothing. -/
theorem words_word (hword : IsWord word) (hrest : ∀ c ∈ rest.head?, isBlank c = true) :
    words (word ++ rest) = word :: words rest := by
  cases word with
  | nil => exact absurd rfl hword.ne_nil
  | cons c more =>
      have hmore : ∀ d ∈ more, (!isBlank d) = true := fun d hd => by
        simpa using hword.solid d (List.mem_cons_of_mem c hd)
      have hend : ∀ d ∈ rest.head?, ¬(!isBlank d) = true := fun d hd => by simpa using hrest d hd
      have htake : rest.takeWhile (!isBlank ·) = [] := by
        cases rest with
        | nil => rfl
        | cons d rest => exact List.takeWhile_cons_of_neg (hend d rfl)
      have hdrop : rest.dropWhile (!isBlank ·) = rest := by
        cases rest with
        | nil => rfl
        | cons d rest => exact List.dropWhile_cons_of_neg (hend d rfl)
      rw [List.cons_append, words_cons, if_neg (by simp [hword.solid c List.mem_cons_self]),
        List.takeWhile_append_of_pos hmore, List.dropWhile_append_of_pos hmore, htake, hdrop, List.append_nil]

theorem words_of_isWord (hword : IsWord word) : words word = [word] := by
  have hall := words_word hword (fun c (hc : c ∈ [].head?) => absurd hc (by simp))
  rwa [List.append_nil, words_nil] at hall

/-- A blank separates the words in front of it from those behind it. -/
theorem words_append_blank (hc : isBlank c = true) (front back : List Char) :
    words (front ++ c :: back) = words front ++ words back := by
  fun_induction words front with
  | case1 => exact words_cons_blank hc back
  | case2 d more hblank ih => rw [List.cons_append, words_cons_blank hblank, ih]
  | case3 d more hblank ih =>
      have hrun : d :: more = (d :: more.takeWhile (!isBlank ·)) ++ more.dropWhile (!isBlank ·) := by
        rw [List.cons_append, List.takeWhile_append_dropWhile]
      have hrest : ∀ e ∈ (more.dropWhile (!isBlank ·) ++ c :: back).head?, isBlank e = true := by
        have hstop := head?_dropWhile_run more
        cases hdrop : more.dropWhile (!isBlank ·) with
        | nil => simpa using hc
        | cons f behind =>
            rw [hdrop] at hstop
            simpa using hstop
      rw [hrun, List.append_assoc, words_word (isWord_run (Bool.eq_false_of_not_eq_true hblank) more) hrest, ih,
        List.cons_append]

theorem words_gap (h : IsGap text) : words text = [] := by
  induction text with
  | nil => exact words_nil
  | cons c text ih =>
      rw [words_cons_blank (h c List.mem_cons_self), ih fun d hd => h d (List.mem_cons_of_mem c hd)]

/-- The words of two texts are those of both, where the first one ends in a blank. -/
theorem words_append (hfront : ∀ c ∈ front.getLast?, isBlank c = true) (back : List Char) :
    words (front ++ back) = words front ++ words back := by
  rcases List.eq_nil_or_concat' front with rfl | ⟨more, c, rfl⟩
  · rw [words_nil]
    rfl
  · have hc : isBlank c = true := hfront c (by simp)
    rw [List.append_assoc, List.singleton_append, words_append_blank hc, words_append_blank hc, words_nil, List.append_nil]

theorem words_gap_append (hgap : IsGap front) (text : List Char) : words (front ++ text) = words text := by
  rw [words_append fun c hc => hgap c (List.mem_of_getLast? hc), words_gap hgap, List.nil_append]

theorem words_append_gap (hgap : IsGap back) (text : List Char) : words (text ++ back) = words text := by
  cases back with
  | nil => rw [List.append_nil]
  | cons c back =>
      rw [words_append_blank (hgap c List.mem_cons_self), words_gap fun d hd => hgap d (List.mem_cons_of_mem c hd),
        List.append_nil]

theorem words_eq_nil_iff : words text = [] ↔ IsGap text := by
  refine ⟨fun h => ?_, words_gap⟩
  fun_induction words text with
  | case1 => simp [IsGap]
  | case2 c rest hblank ih =>
      intro d hd
      rcases List.mem_cons.mp hd with rfl | hd
      · exact hblank
      · exact ih h d hd
  | case3 => cases h

/-! ### Blanks around a text -/

theorem trim_eq (text : List Char) : trim text = (text.dropWhile isBlank).rdropWhile isBlank := rfl

theorem trim_nil : trim [] = [] := rfl

/-- A text is what is left of it with blanks around. -/
theorem exists_gaps (text : List Char) : ∃ lead tail, text = lead ++ trim text ++ tail ∧ IsGap lead ∧ IsGap tail := by
  refine ⟨text.takeWhile isBlank, (text.dropWhile isBlank).rtakeWhile isBlank, ?_, ?_, ?_⟩
  · rw [trim_eq, List.append_assoc, List.rdropWhile_append_rtakeWhile, List.takeWhile_append_dropWhile]
  · exact fun c hc => List.mem_takeWhile_imp hc
  · exact fun c hc => List.mem_rtakeWhile_imp hc

theorem words_trim (text : List Char) : words (trim text) = words text := by
  obtain ⟨lead, tail, htext, hlead, htail⟩ := exists_gaps text
  calc words (trim text) = words (lead ++ trim text) := (words_gap_append hlead _).symm
    _ = words (lead ++ trim text ++ tail) := (words_append_gap htail _).symm
    _ = words text := by rw [← htext]

theorem trim_eq_nil_iff : trim text = [] ↔ IsGap text := by
  refine ⟨fun h => ?_, fun h => ?_⟩
  · rw [← words_eq_nil_iff, ← words_trim, h, words_nil]
  · rw [trim_eq, List.dropWhile_eq_nil_iff.mpr h, List.rdropWhile_nil]

theorem getLast?_trim (text : List Char) : ∀ c ∈ (trim text).getLast?, isBlank c = false := by
  intro c hc
  obtain ⟨hne, rfl⟩ := List.mem_getLast?_eq_getLast hc
  exact Bool.eq_false_iff.mpr (List.rdropWhile_last_not _ _ hne)

theorem trim_of_edges (hhead : ∀ c ∈ text.head?, isBlank c = false) (hlast : ∀ c ∈ text.getLast?, isBlank c = false) :
    trim text = text := by
  have hdrop : text.dropWhile isBlank = text := by
    cases text with
    | nil => rfl
    | cons c text => exact List.dropWhile_cons_of_neg (by simp [hhead c rfl])
  rw [trim_eq, hdrop, List.rdropWhile_eq_self_iff]
  intro hne
  simp [hlast _ (List.getLast?_eq_some_getLast hne)]

theorem head?_trim (text : List Char) : ∀ c ∈ (trim text).head?, isBlank c = false := by
  intro c hc
  obtain ⟨more, hmore⟩ := List.head?_eq_some_iff.mp hc
  obtain ⟨tail, hdrop⟩ : trim text <+: text.dropWhile isBlank := List.rdropWhile_prefix _ _
  have hstop := List.head?_dropWhile_not isBlank text
  rw [← hdrop, hmore] at hstop
  simpa using hstop

theorem trim_gap_append (hgap : IsGap front) (text : List Char) : trim (front ++ text) = trim text := by
  rw [trim_eq, List.dropWhile_append_of_pos hgap, trim_eq]

theorem trim_append_gap (hgap : IsGap back) (text : List Char) : trim (text ++ back) = trim text := by
  have hright : ∀ cs : List Char, (cs ++ back).rdropWhile isBlank = cs.rdropWhile isBlank := by
    intro cs
    rw [List.rdropWhile, List.reverse_append, List.dropWhile_append_of_pos fun c hc => hgap c (List.mem_reverse.mp hc),
      List.rdropWhile]
  rw [trim_eq, trim_eq, List.dropWhile_append]
  split_ifs with hnil
  · rw [List.dropWhile_eq_nil_iff.mpr hgap, List.isEmpty_iff.mp hnil]
  · exact hright _

/-- What is left of a text without the blanks around it. -/
structure Trims (text body : List Char) : Prop where
  around : ∃ lead tail, text = lead ++ body ++ tail ∧ IsGap lead ∧ IsGap tail
  head : ∀ c ∈ body.head?, isBlank c = false
  last : ∀ c ∈ body.getLast?, isBlank c = false

theorem trims_iff {body : List Char} : Trims text body ↔ body = trim text := by
  constructor
  · rintro ⟨⟨lead, tail, rfl, hlead, htail⟩, hhead, hlast⟩
    rw [trim_append_gap htail, trim_gap_append hlead, trim_of_edges hhead hlast]
  · rintro rfl
    exact ⟨exists_gaps text, head?_trim text, getLast?_trim text⟩

/-! ### Words that begin a text -/

/-- A text that does not end in a blank ends in a word. -/
theorem exists_last_word (hne : text ≠ []) (hlast : ∀ c ∈ text.getLast?, isBlank c = false) :
    ∃ front word, text = front ++ word ∧ IsWord word ∧ ∀ c ∈ front.getLast?, isBlank c = true := by
  refine ⟨text.rdropWhile (!isBlank ·), text.rtakeWhile (!isBlank ·), ?_, ⟨?_, ?_⟩, ?_⟩
  · rw [List.rdropWhile_append_rtakeWhile]
  · rw [ne_eq, List.rtakeWhile_eq_nil_iff]
    intro h
    exact h hne (by simp [hlast _ (List.getLast?_eq_some_getLast hne)])
  · intro c hc
    simpa using List.mem_rtakeWhile_imp hc
  · intro c hc
    obtain ⟨hfront, rfl⟩ := List.mem_getLast?_eq_getLast hc
    simpa using List.rdropWhile_last_not _ _ hfront

/-- The words of a text begin those of a longer one, unless the text ends inside a word of it. -/
theorem words_prefix_append_iff (hlast : ∀ c ∈ text.getLast?, isBlank c = false) (hne : text ≠ []) :
    words text <+: words (text ++ rest) ↔ ∀ c ∈ rest.head?, isBlank c = true := by
  obtain ⟨front, word, rfl, hword, hfront⟩ := exists_last_word hne hlast
  rw [List.append_assoc, words_append hfront, words_append hfront, words_of_isWord hword, List.prefix_append_right_inj]
  constructor
  · intro hprefix c hc
    by_contra hblank
    cases rest with
    | nil => cases hc
    | cons d rest =>
        obtain rfl : d = c := Option.some.inj hc
        -- The word goes on with the non-blanks that follow, so it is not the word that stands there.
        have hlonger := hword.append (isWord_run (Bool.eq_false_of_not_eq_true hblank) rest)
        have hsplit : word ++ d :: rest =
            (word ++ d :: rest.takeWhile (!isBlank ·)) ++ rest.dropWhile (!isBlank ·) := by
          rw [List.append_assoc, List.cons_append, List.takeWhile_append_dropWhile]
        rw [hsplit, words_word hlonger (head?_dropWhile_run rest), List.cons_prefix_cons] at hprefix
        simpa using hprefix.1
  · intro hrest
    rw [words_word hword hrest]
    exact ⟨words rest, rfl⟩

/-! ### Words joined by spaces -/

/-- Words with single spaces between them. -/
def spaced (parts : List (List Char)) : List Char := [' '].intercalate parts

theorem spaced_cons (word next : List Char) (more : List (List Char)) :
    spaced (word :: next :: more) = word ++ ' ' :: spaced (next :: more) := by
  rw [spaced, List.intercalate_cons_cons, List.append_assoc, List.singleton_append]
  rfl

theorem spaced_singleton (word : List Char) : spaced [word] = word := List.intercalate_singleton

/-- A line as it should be printed: it is not empty, spaces are the only blanks in it, none stands at an end, and no two
stand together. -/
structure Tidy (text : List Char) : Prop where
  ne_nil : text ≠ []
  spaces : ∀ c ∈ text, isBlank c = true → c = ' '
  lead : ∀ c ∈ text.head?, isBlank c = false
  tail : ∀ c ∈ text.getLast?, isBlank c = false
  single : text.IsChain fun a b => isBlank a = false ∨ isBlank b = false

theorem IsWord.tidy (h : IsWord word) : Tidy word where
  ne_nil := h.ne_nil
  spaces c hc hblank := absurd hblank (by simp [h.solid c hc])
  lead c hc := h.solid c (List.mem_of_head? hc)
  tail c hc := h.solid c (List.mem_of_getLast? hc)
  single := (List.pairwise_of_forall_mem_list fun a ha b _ => Or.inl (h.solid a ha)).isChain

/-- A word and a space in front of a line. -/
theorem Tidy.cons (h : Tidy text) (hword : IsWord word) : Tidy (word ++ ' ' :: text) where
  ne_nil := by simp
  spaces := by
    intro c hc hblank
    rcases List.mem_append.mp hc with hc | hc
    · exact hword.tidy.spaces c hc hblank
    · exact (List.mem_cons.mp hc).elim id fun hc => h.spaces c hc hblank
  lead := by
    rw [List.head?_append_of_ne_nil _ hword.ne_nil]
    exact hword.tidy.lead
  tail := by
    rw [List.getLast?_append_of_ne_nil _ (List.cons_ne_nil _ _), List.getLast?_cons_of_ne_nil h.ne_nil]
    exact h.tail
  single := by
    refine List.isChain_append.mpr ⟨hword.tidy.single, List.isChain_cons.mpr ⟨?_, h.single⟩, ?_⟩
    · exact fun c hc => Or.inr (h.lead c hc)
    · exact fun c hc _ _ => Or.inl (hword.tidy.tail c hc)

theorem tidy_spaced (hne : parts ≠ []) (h : ∀ word ∈ parts, IsWord word) : Tidy (spaced parts) := by
  induction parts with
  | nil => exact absurd rfl hne
  | cons word more ih =>
      have hword := h word List.mem_cons_self
      cases more with
      | nil =>
          rw [spaced_singleton]
          exact hword.tidy
      | cons next more =>
          rw [spaced_cons]
          exact (ih (List.cons_ne_nil _ _) fun other hother => h other (List.mem_cons_of_mem word hother)).cons hword

/-- Joined words are read back. -/
theorem words_spaced (h : ∀ word ∈ parts, IsWord word) : words (spaced parts) = parts := by
  induction parts with
  | nil => exact words_nil
  | cons word more ih =>
      have hword := words_of_isWord (h word List.mem_cons_self)
      cases more with
      | nil => rwa [spaced_singleton]
      | cons next more =>
          rw [spaced_cons, words_append_blank (by decide), hword,
            ih fun other hother => h other (List.mem_cons_of_mem word hother)]
          rfl

end RouteBook.Text
