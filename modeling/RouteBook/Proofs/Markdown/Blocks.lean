import RouteBook.Markdown.Event
import RouteBook.Proofs.Markdown.Lines

/-! Blocks outside all containers. Lines that start with a number sign, with two stars or with a fence open no
quote and no item, so each of them begins a leaf whatever stands before it, and a blank line changes nothing but
the builder's memory of it. `ReadAs` says that some lines are read as some blocks whatever follows them; it holds of
a row of lines when it holds of its parts. -/

namespace RouteBook.Markdown

/-! ### Indentation -/

namespace Cursor

/-- A character that is no indentation. -/
def IsSolid (c : Char) : Prop := c ≠ ' ' ∧ c ≠ '\t'

instance (c : Char) : Decidable (IsSolid c) := inferInstanceAs (Decidable (c ≠ ' ' ∧ c ≠ '\t'))

theorem spacesFrom_solid {c : Char} (hc : IsSolid c) (rest : List Char) (column n : Nat) :
    spacesFrom (c :: rest) column n = (0, ⟨c :: rest, column, 0⟩) := by
  cases n with
  | zero => rfl
  | succ n => exact spacesFrom.eq_4 (c :: rest) column (n + 1) (by simp) (by simp [hc.1]) (by simp [hc.2])

theorem spaces_solid {c : Char} (hc : IsSolid c) (rest : List Char) (n : Nat) :
    (ofText (c :: rest)).spaces n = (0, ofText (c :: rest)) := by
  unfold spaces
  split_ifs with hn
  · obtain rfl : n = 0 := Nat.le_zero.mp hn
    rfl
  · rw [ofText, spacesFrom_solid hc]

/-- Taking indentation takes spaces and tabs only. -/
theorem spacesFrom_rest (text : List Char) (column n : Nat) :
    ∃ front, text = front ++ (spacesFrom text column n).2.rest ∧ ∀ c ∈ front, ¬IsSolid c := by
  fun_induction spacesFrom text column n with
  | case1 rest column => exact ⟨[], rfl, by simp⟩
  | case2 column n rest taken cursor heq ih =>
      obtain ⟨front, hfront, hblank⟩ := ih
      rw [heq] at hfront
      exact ⟨' ' :: front, by rw [hfront]; rfl, by simpa [IsSolid] using hblank⟩
  | case3 column n rest width hwidth => exact ⟨['\t'], rfl, by simp [IsSolid]⟩
  | case4 column n rest width hwidth taken cursor heq ih =>
      obtain ⟨front, hfront, hblank⟩ := ih
      rw [heq] at hfront
      exact ⟨'\t' :: front, by rw [hfront]; rfl, by simpa [IsSolid] using hblank⟩
  | case5 => exact ⟨[], rfl, by simp⟩

end Cursor

open Cursor

namespace Block

open Builder

/-! ### One line -/

/-- A builder outside all containers. -/
def Builder.outside (blocks : List Block) (lastBlank : Bool) : Builder := ⟨[], blocks, lastBlank, false, []⟩

variable {blocks : List Block} {lastBlank ended : Bool} {c : Char} {text : List Char} {rest : List Line}

theorem finishList_outside : (outside blocks lastBlank).finishList = outside blocks false := by
  cases lastBlank <;> rfl

/-- A line that begins a leaf: it is not indented and starts no container. -/
structure BeginsLeaf (text : List Char) : Prop where
  solid : ∃ c more, text = c :: more ∧ IsSolid c ∧ isSpace c = false ∧ c ≠ '>' ∧ c ≠ '<'
  noMarker : listMarker? text = none

theorem step_leaf (h : BeginsLeaf text) :
    step (outside blocks lastBlank) ⟨text, ended⟩ rest = leaf (outside blocks false) (ofText text) ⟨text, ended⟩ rest := by
  obtain ⟨c, more, rfl, hsolid, hspace, hquote, -⟩ := h.solid
  have hitem : itemMarker? 0 (ofText (c :: more)) = none := by
    have hmarker : listMarker? (ofText (c :: more)).rest = none := h.noMarker
    unfold itemMarker?
    rw [hmarker]
    exact ite_self _
  have hopen : openContainers ((c :: more).length + 1) (outside blocks lastBlank) (ofText (c :: more)) =
      (outside blocks lastBlank, some (ofText (c :: more))) := by
    rw [openContainers, spaces_solid hsolid]
    simp only [hitem]
    rw [if_neg (by decide)]
    split
    · next heq => exact absurd (List.cons_eq_cons.mp heq).1 hquote
    · rfl
  have hblank : isBlankLine (ofText (c :: more)).rest = false := by simp [ofText, isBlankLine, hspace]
  unfold step
  simp only [outside, Builder.containers, List.map_nil, List.reverse_nil, enter, popTo, List.length_nil, Nat.sub_zero,
    List.range_zero, List.foldl_nil]
  rw [← outside, hopen]
  simp only [hblank]
  rw [finishList_outside]
  rfl

theorem leaf_heading {more raw : List Char} {level : Nat} (h : atxHeading? ('#' :: more) = some (level, raw)) :
    leaf (outside blocks false) (ofText ('#' :: more)) ⟨'#' :: more, ended⟩ rest =
      (outside (.heading level (atxContent raw) :: blocks) false, rest) := by
  have hbreak : isThematicBreak ('#' :: more) = false := by simp [isThematicBreak]
  unfold leaf
  rw [spaces_solid (by decide)]
  simp only [ofText, hbreak, h]
  rfl

theorem leaf_fence {more info : List Char} {length : Nat} (h : codeFence? ('\x60' :: more) = some ('\x60', length, info)) :
    leaf (outside blocks false) (ofText ('\x60' :: more)) ⟨'\x60' :: more, ended⟩ rest =
      (outside (.code (some (unescape ((info.dropWhile isSpace).reverse.dropWhile isSpace).reverse))
          (fencedLines [] 0 '\x60' length rest).1 :: blocks) false,
        (fencedLines [] 0 '\x60' length rest).2) := by
  have hbreak : isThematicBreak ('\x60' :: more) = false := by simp [isThematicBreak]
  have hheading : atxHeading? ('\x60' :: more) = none := by simp [atxHeading?]
  unfold leaf
  rw [spaces_solid (by decide)]
  simp only [ofText, hbreak, hheading, h]
  rfl

/-- A line that starts with two stars is a paragraph of its own if the next line is blank. -/
theorem leaf_paragraph {c : Char} {more : List Char} (hc : IsSolid c) (hstar : c ≠ '*') :
    leaf (outside blocks false) (ofText ('*' :: '*' :: c :: more)) ⟨'*' :: '*' :: c :: more, ended⟩ (⟨[], true⟩ :: rest) =
      (outside (.paragraph ('*' :: '*' :: c :: more) :: blocks) false, ⟨[], true⟩ :: rest) := by
  have hbreak : isThematicBreak ('*' :: '*' :: c :: more) = false := by simp [isThematicBreak, hstar, hc.1, hc.2]
  have hheading : atxHeading? ('*' :: '*' :: c :: more) = none := by simp [atxHeading?]
  have hfence : codeFence? ('*' :: '*' :: c :: more) = none := by simp [codeFence?]
  have hjoin : joinLines ['*' :: '*' :: c :: more] = '*' :: '*' :: c :: more := by simp [joinLines]
  have hlines : definitionLines [] (⟨[], true⟩ :: rest) = [] := rfl
  have hdefinition : Link.definition? ('*' :: '*' :: c :: more) = none := rfl
  have htable : tableHead? [] ('*' :: '*' :: c :: more) (⟨[], true⟩ :: rest) = none := by
    cases hcount : headColumns? ('*' :: '*' :: c :: more) with
    | none => simp [tableHead?, hcount]
    | some count =>
        simp [tableHead?, hcount, continued?, enter, Cursor.remaining, ofText, delimiterRow?, spaces, spacesFrom]
  have hend : paragraphLines [] (⟨[], true⟩ :: rest) = ⟨[], none, ⟨[], true⟩ :: rest⟩ := rfl
  unfold leaf
  rw [spaces_solid (by decide)]
  simp only [ofText, hbreak, hheading, hfence]
  simp only [outside, Builder.containers, List.map_nil, List.reverse_nil, hlines, hdefinition, htable, hend, hjoin]
  rfl

/-! ### Fenced lines -/

/-- A line outside all containers that ends a block with a fence of some backticks. -/
def endsFence (length : Nat) (text : List Char) : Bool :=
  ((ofText text).spaces 4).1 < 4 && closesFence '\x60' length ((ofText text).spaces 4).2.rest

theorem fencedLines_cons (length : Nat) (line : Line) (rest : List Line) :
    fencedLines [] 0 '\x60' length (line :: rest) =
      if endsFence length line.text then ([], rest)
      else (line.raw ++ (fencedLines [] 0 '\x60' length rest).1, (fencedLines [] 0 '\x60' length rest).2) := by
  have hraw : rawLine (ofText line.text) line = line.raw := by
    cases hended : line.ended <;> simp [rawLine, Line.raw, Cursor.remaining, ofText, hended]
  rw [← hraw]
  rfl

/-- The block goes on until the first line that ends it. -/
theorem fencedLines_append {length : Nat} {body : List Line} {closing : Line}
    (hbody : ∀ line ∈ body, endsFence length line.text = false) (hclosing : endsFence length closing.text = true) :
    fencedLines [] 0 '\x60' length (body ++ closing :: rest) = (body.flatMap Line.raw, rest) := by
  induction body with
  | nil => rw [List.nil_append, fencedLines_cons, if_pos hclosing, List.flatMap_nil]
  | cons line body ih =>
      have hline : endsFence length line.text = false := hbody line List.mem_cons_self
      rw [List.cons_append, fencedLines_cons, if_neg (by simp [hline]),
        ih fun other hother => hbody other (List.mem_cons_of_mem line hother), List.flatMap_cons]

/-- A line whose first character is no backtick, spaces and tabs apart, ends no block. -/
theorem endsFence_eq_false {length : Nat} (hlength : 0 < length) {front : List Char} (hfront : ∀ d ∈ front, ¬IsSolid d)
    (hc : IsSolid c) (htick : c ≠ '\x60') (more : List Char) : endsFence length (front ++ c :: more) = false := by
  obtain ⟨taken, htaken, hblank⟩ := spacesFrom_rest (front ++ c :: more) 0 4
  have hrest : ((ofText (front ++ c :: more)).spaces 4).2.rest = (spacesFrom (front ++ c :: more) 0 4).2.rest := rfl
  have hhead : ∀ behind, (spacesFrom (front ++ c :: more) 0 4).2.rest ≠ '\x60' :: behind := by
    intro behind heq
    rw [heq] at htaken
    rcases List.append_eq_append_iff.mp htaken with ⟨middle, htaken, hmiddle⟩ | ⟨middle, hfront', hmiddle⟩
    · cases middle with
      | nil => exact htick (List.cons_eq_cons.mp hmiddle).1
      | cons d middle =>
          obtain ⟨rfl, -⟩ := List.cons_eq_cons.mp hmiddle
          exact hblank c (by simp [htaken]) hc
    · cases middle with
      | nil => exact htick (List.cons_eq_cons.mp hmiddle).1.symm
      | cons d middle =>
          obtain ⟨rfl, -⟩ := List.cons_eq_cons.mp hmiddle
          exact hfront '\x60' (by simp [hfront']) (by decide)
  have hcloses : closesFence '\x60' length ((ofText (front ++ c :: more)).spaces 4).2.rest = false := by
    rw [hrest]
    cases hcase : (spacesFrom (front ++ c :: more) 0 4).2.rest with
    | nil => simp [closesFence, hlength.ne']
    | cons d behind =>
        have hd : d ≠ '\x60' := fun heq => hhead behind (by rw [hcase, heq])
        simp [closesFence, hd, hlength.ne']
  rw [endsFence, hcloses, Bool.and_false]

/-! ### Rows of lines -/

/-- Outside all containers some lines are read as some blocks, whatever follows them. -/
def ReadAs (front : List Line) (found : List Block) : Prop :=
  ∀ blocks lastBlank rest fuel, (front ++ rest).length ≤ fuel → ∃ lastBlank' fuel', rest.length ≤ fuel' ∧
    build fuel (outside blocks lastBlank) (front ++ rest) = build fuel' (outside (found.reverse ++ blocks) lastBlank') rest

namespace ReadAs

variable {front back : List Line} {found more : List Block}

theorem nil : ReadAs [] [] := fun _ lastBlank _ fuel hfuel => ⟨lastBlank, fuel, hfuel, rfl⟩

theorem append (h : ReadAs front found) (hback : ReadAs back more) : ReadAs (front ++ back) (found ++ more) := by
  intro blocks lastBlank rest fuel hfuel
  rw [List.append_assoc] at hfuel ⊢
  obtain ⟨lastBlank₁, fuel₁, hfuel₁, hbuild₁⟩ := h blocks lastBlank (back ++ rest) fuel hfuel
  obtain ⟨lastBlank₂, fuel₂, hfuel₂, hbuild₂⟩ := hback (found.reverse ++ blocks) lastBlank₁ rest fuel₁ hfuel₁
  refine ⟨lastBlank₂, fuel₂, hfuel₂, ?_⟩
  rw [hbuild₁, hbuild₂, List.reverse_append, List.append_assoc]

/-- Lines that one step takes off. -/
theorem of_step {line : Line} (h : ∀ blocks lastBlank rest, ∃ lastBlank',
    step (outside blocks lastBlank) line (front ++ rest) = (outside (found.reverse ++ blocks) lastBlank', rest)) :
    ReadAs (line :: front) found := by
  intro blocks lastBlank rest fuel hfuel
  obtain ⟨lastBlank', hstep⟩ := h blocks lastBlank rest
  cases fuel with
  | zero => simp at hfuel
  | succ fuel =>
      refine ⟨lastBlank', fuel, ?_, ?_⟩
      · simp only [List.cons_append, List.length_cons, List.length_append] at hfuel
        omega
      · rw [List.cons_append, build, hstep]

theorem flatMap {α : Type} {items : List α} {lines : α → List Line} {found : α → List Block}
    (h : ∀ item ∈ items, ReadAs (lines item) (found item)) : ReadAs (items.flatMap lines) (items.flatMap found) := by
  induction items with
  | nil => exact nil
  | cons item items ih =>
      exact (h item List.mem_cons_self).append (ih fun other hother => h other (List.mem_cons_of_mem item hother))

theorem blank : ReadAs [⟨[], true⟩] [] := of_step fun _ _ _ => ⟨true, rfl⟩

theorem heading {text raw : List Char} {level : Nat} (h : atxHeading? ('#' :: text) = some (level, raw)) :
    ReadAs [⟨'#' :: text, true⟩] [.heading level (atxContent raw)] := by
  have hbegins : BeginsLeaf ('#' :: text) := ⟨⟨'#', text, rfl, by decide⟩, by simp [listMarker?]⟩
  refine of_step fun blocks lastBlank rest => ⟨false, ?_⟩
  rw [step_leaf hbegins, leaf_heading h]
  rfl

/-- A paragraph and the blank line behind it. -/
theorem paragraph {c : Char} (hc : IsSolid c) (hstar : c ≠ '*') (text : List Char) :
    ReadAs [⟨'*' :: '*' :: c :: text, true⟩, ⟨[], true⟩] [.paragraph ('*' :: '*' :: c :: text)] := by
  have hbegins : BeginsLeaf ('*' :: '*' :: c :: text) := ⟨⟨'*', _, rfl, by decide⟩, by simp [listMarker?]⟩
  intro blocks lastBlank rest fuel hfuel
  -- A paragraph is ended by the line behind it, which is left for a step of its own.
  obtain ⟨fuel, rfl⟩ : ∃ left, fuel = left + 2 := ⟨fuel - 2, by simp at hfuel; omega⟩
  refine ⟨true, fuel, by simpa using hfuel, ?_⟩
  rw [List.cons_append, List.cons_append, List.nil_append, build, step_leaf hbegins, leaf_paragraph hc hstar]
  rfl

/-- A block between fences of three backticks. -/
theorem fence {info : List Char} {body : List Line} (hinfo : '\x60' ∉ info)
    (hbody : ∀ line ∈ body, endsFence 3 line.text = false) :
    ReadAs (⟨'\x60' :: '\x60' :: '\x60' :: info, true⟩ :: (body ++ [⟨"\x60\x60\x60".toList, true⟩]))
      [.code (some (unescape ((info.dropWhile isSpace).reverse.dropWhile isSpace).reverse)) (body.flatMap Line.raw)] := by
  have hticks : (info.takeWhile fun c => c = '\x60') = [] := by
    cases info with
    | nil => rfl
    | cons c info => simp [show c ≠ '\x60' from fun heq => hinfo (by simp [heq])]
  have hopens : codeFence? ('\x60' :: '\x60' :: '\x60' :: info) = some ('\x60', 3, info) := by
    simp [codeFence?, hticks, hinfo]
  have hbegins : BeginsLeaf ('\x60' :: '\x60' :: '\x60' :: info) := ⟨⟨'\x60', _, rfl, by decide⟩, by simp [listMarker?]⟩
  have hcloses : endsFence 3 "\x60\x60\x60".toList = true := by decide
  refine of_step fun blocks lastBlank rest => ⟨false, ?_⟩
  rw [step_leaf hbegins, leaf_fence hopens, List.append_assoc, List.singleton_append, fencedLines_append hbody hcloses]
  rfl

end ReadAs

end Block

/-- A text whose lines are all read outside containers has these blocks and no link definitions. -/
theorem Tree.ofText_eq {text : List Char} {found : List Block} (h : Block.ReadAs (lines text) found) :
    Tree.ofText text = ⟨found, []⟩ := by
  obtain ⟨lastBlank, fuel, -, hbuild⟩ := h [] false [] (lines text).length (by simp)
  rw [List.append_nil] at hbuild
  have hend : Block.build fuel (Block.Builder.outside (found.reverse ++ []) lastBlank) [] =
      Block.Builder.outside found.reverse lastBlank := by
    rw [List.append_nil]
    cases fuel <;> rfl
  have hstart : Block.Builder.start = Block.Builder.outside [] false := rfl
  rw [Tree.ofText, hstart, hbuild, hend]
  simp [Block.Builder.outside, Block.Builder.popTo]

end RouteBook.Markdown
