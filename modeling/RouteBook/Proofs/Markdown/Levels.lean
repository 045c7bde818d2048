import Mathlib.Tactic
import RouteBook.Markdown.Event

/-! Heading levels. A heading that starts with number signs has one to six of them, and one that is underlined
has the level one or two. Blocks keep the levels they are made with while containers open and close around
them, so every heading among the events of a text has a level from one to six. -/

namespace RouteBook.Markdown

/-- A level that a heading can have. -/
def IsLevel (level : Nat) : Prop := 1 ≤ level ∧ level ≤ 6

def Element.Proper : Element → Prop
  | .heading level => IsLevel level
  | _ => True

def Event.Proper : Event → Prop
  | .enter element | .leave element => element.Proper
  | _ => True

/-! ### Levels of blocks -/

/-- All headings in a block have levels that headings can have. -/
inductive Block.Levelled : Block → Prop
  | paragraph (text : List Char) : Levelled (.paragraph text)
  | heading {level : Nat} (text : List Char) (hlevel : IsLevel level) : Levelled (.heading level text)
  | rule : Levelled .rule
  | code (info : Option (List Char)) (body : List Char) : Levelled (.code info body)
  | html (body : List Char) : Levelled (.html body)
  | quote {blocks : List Block} (hblocks : ∀ block ∈ blocks, Levelled block) : Levelled (.quote blocks)
  | list {start : Option Nat} {tight : Bool} {items : List Block} (hitems : ∀ item ∈ items, Levelled item) :
      Levelled (.list start tight items)
  | item {blocks : List Block} (hblocks : ∀ block ∈ blocks, Levelled block) : Levelled (.item blocks)
  | table (columns : List Alignment) (head : List (List Char)) (rows : List (List (List Char))) :
      Levelled (.table columns head rows)

namespace Block

theorem isLevel_of_atxHeading? {text raw : List Char} {level : Nat} (h : atxHeading? text = some (level, raw)) :
    IsLevel level := by
  simp only [atxHeading?, Bool.and_eq_true, decide_eq_true_eq] at h
  split_ifs at h with hlevel
  cases h
  exact hlevel.1

theorem isLevel_of_setextLevel? {text : List Char} {level : Nat} (h : setextLevel? text = some level) :
    IsLevel level := by
  unfold setextLevel? at h
  split at h
  · split_ifs at h
    · cases h
      exact ⟨by decide, by decide⟩
    · cases h
      exact ⟨by decide, by decide⟩
  · cases h

theorem isLevel_of_paragraphLines {containers : List Container} {following : List Line} {level : Nat}
    (h : (paragraphLines containers following).heading = some level) : IsLevel level := by
  induction following with
  | nil => cases h
  | cons line rest ih =>
      rw [paragraphLines] at h
      dsimp only at h
      split at h
      · next found hsetext =>
        cases h
        split_ifs at hsetext
        exact isLevel_of_setextLevel? hsetext
      · split_ifs at h
        exact ih h

namespace Builder

/-- All blocks that a builder holds have proper levels. -/
structure Levelled (b : Builder) : Prop where
  stack : ∀ top ∈ b.stack, ∀ block ∈ top.blocks, block.Levelled
  blocks : ∀ block ∈ b.blocks, block.Levelled

variable {b : Builder}

theorem levelled_start : start.Levelled := ⟨by simp [start], by simp [start]⟩

theorem Levelled.append {block : Block} (h : b.Levelled) (hblock : block.Levelled) : (append block b).Levelled := by
  unfold Builder.append
  split
  · refine ⟨h.stack, fun other hother => ?_⟩
    rcases List.mem_cons.mp hother with rfl | hother
    · exact hblock
    · exact h.blocks other hother
  · next top below hstack =>
    refine ⟨fun opened hopened other hother => ?_, h.blocks⟩
    rcases List.mem_cons.mp hopened with rfl | hopened
    · rcases List.mem_cons.mp hother with rfl | hother
      · exact hblock
      · exact h.stack top (by simp [hstack]) other hother
    · exact h.stack opened (by simp [hstack, hopened]) other hother

theorem levelled_close {top : Open} (h : ∀ block ∈ top.blocks, block.Levelled) : (Open.close top).Levelled := by
  have hreverse : ∀ block ∈ top.blocks.reverse, block.Levelled :=
    fun block hblock => h block (List.mem_reverse.mp hblock)
  unfold Open.close
  split
  · exact .quote hreverse
  · exact .list hreverse
  · exact .item hreverse

theorem Levelled.pop (h : b.Levelled) : b.pop.Levelled := by
  unfold Builder.pop
  split
  · exact h
  · next top below hstack =>
    have hbelow : ∀ opened ∈ below, ∀ block ∈ opened.blocks, block.Levelled :=
      fun opened hopened => h.stack opened (by simp [hstack, hopened])
    have htop := levelled_close (h.stack top (by simp [hstack]))
    exact Levelled.append ⟨hbelow, h.blocks⟩ htop

theorem Levelled.push (h : b.Levelled) (container : Container) : (b.push container).Levelled := by
  refine ⟨fun opened hopened block hblock => ?_, h.blocks⟩
  rcases List.mem_cons.mp hopened with rfl | hopened
  · cases hblock
  · exact h.stack opened hopened block hblock

theorem Levelled.popTo (h : b.Levelled) (depth : Nat) : (b.popTo depth).Levelled := by
  unfold Builder.popTo
  induction List.range (b.stack.length - depth) generalizing b with
  | nil => exact h
  | cons n rest ih => exact ih h.pop

theorem Levelled.finishEmptyItem (h : b.Levelled) : b.finishEmptyItem.Levelled := by
  unfold Builder.finishEmptyItem
  split
  · exact ⟨h.pop.stack, h.pop.blocks⟩
  · exact ⟨h.stack, h.blocks⟩

/-- Only the blocks count, not what the containers around them are. -/
theorem Levelled.of_blocks {c : Builder} (h : b.Levelled) (hstack : c.stack.map Open.blocks = b.stack.map Open.blocks)
    (hblocks : c.blocks = b.blocks) : c.Levelled := by
  refine ⟨fun opened hopened block hblock => ?_, hblocks ▸ h.blocks⟩
  have hmem : opened.blocks ∈ b.stack.map Open.blocks := hstack ▸ List.mem_map_of_mem hopened
  obtain ⟨other, hother, heq⟩ := List.mem_map.mp hmem
  exact h.stack other hother block (heq ▸ hblock)

theorem Levelled.loosen (h : b.Levelled) : b.loosen.Levelled := by
  unfold Builder.loosen
  split
  · next hstack => exact h.of_blocks (by simp [hstack]) rfl
  · exact h

theorem Levelled.finishList (h : b.Levelled) : b.finishList.Levelled := by
  have hlast : ∀ c : Builder, c.Levelled → (if c.lastBlank then { c.loosen with lastBlank := false } else c).Levelled := by
    intro c hc
    split_ifs
    · exact hc.loosen.of_blocks rfl rfl
    · exact hc
  apply hlast
  split
  · exact h.finishEmptyItem.pop
  · exact h.finishEmptyItem

theorem Levelled.continueList (h : b.Levelled) (marker : Char) (number : Nat) :
    (b.continueList marker number).Levelled := by
  have hfresh : ∀ c : Builder, c.Levelled →
      Builder.Levelled { c.push (.list true marker number) with lastBlank := false } := by
    intro c hc
    exact (hc.push _).of_blocks rfl rfl
  have hclosed := h.finishEmptyItem
  unfold Builder.continueList
  dsimp only
  split
  · next hstack =>
    split_ifs
    · exact hclosed.of_blocks (by simp [hstack]) rfl
    · exact hfresh _ hclosed.finishList
  · exact hfresh _ hclosed
  · exact hfresh _ hclosed.finishList

end Builder

open Builder

theorem levelled_openContainers (fuel : Nat) {b : Builder} (h : b.Levelled) (cursor : Cursor) :
    (openContainers fuel b cursor).1.Levelled := by
  induction fuel generalizing b cursor with
  | zero => exact h
  | succ fuel ih =>
      rw [openContainers]
      dsimp only
      split_ifs
      · exact h
      · split
        · next kind number indent behind _ =>
          have hitem := (h.continueList kind number).push (.item indent)
          split_ifs
          · exact hitem.of_blocks rfl rfl
          · exact ih hitem behind
        · split
          · exact ih (h.finishList.push .quote) _
          · exact h

theorem levelled_blankLine {b : Builder} (h : b.Levelled) : (blankLine b).Levelled := by
  unfold blankLine
  split
  · exact h
  · next hstack =>
    split_ifs
    · exact h.of_blocks (by simp [hstack]) rfl
    · exact h.of_blocks rfl rfl
  · exact h.of_blocks rfl rfl

/-- A leaf adds one block at most, and a heading only with a proper level. -/
theorem levelled_leaf {b : Builder} (h : b.Levelled) (cursor : Cursor) (line : Line) (rest : List Line) :
    (leaf b cursor line rest).1.Levelled := by
  unfold leaf
  dsimp only
  split
  · exact (h.append (.code none _)).of_blocks rfl rfl
  · split
    · exact h.append (.html _)
    · split
      · exact h.append .rule
      · split
        · next hheading => exact h.append (.heading _ (isLevel_of_atxHeading? hheading))
        · split
          · exact h.append (.code (some _) _)
          · split
            · exact h.of_blocks rfl rfl
            · split
              · exact h.append (.table _ _ _)
              · split
                · next hheading => exact h.append (.heading _ (isLevel_of_paragraphLines hheading))
                · exact h.append (.paragraph _)

theorem levelled_step {b : Builder} (h : b.Levelled) (line : Line) (rest : List Line) :
    (step b line rest).1.Levelled := by
  have hopened := levelled_openContainers (line.text.length + 1)
    (h.popTo (enter b.containers (.ofText line.text)).1) (enter b.containers (.ofText line.text)).2
  unfold step
  dsimp only
  split
  · exact hopened
  · split_ifs
    · exact levelled_blankLine hopened
    · exact levelled_leaf hopened.finishList _ line rest

theorem levelled_build (fuel : Nat) {b : Builder} (h : b.Levelled) (all : List Line) : (build fuel b all).Levelled := by
  induction fuel generalizing b all with
  | zero => exact h
  | succ fuel ih =>
      cases all with
      | nil => exact h
      | cons line rest => exact ih (levelled_step h line rest) _

end Block

/-- All headings of a text have proper levels. -/
theorem levelled_ofText (text : List Char) : ∀ block ∈ (Tree.ofText text).blocks, block.Levelled := by
  intro block hblock
  have hbuilt := (Block.levelled_build (lines text).length Block.Builder.levelled_start (lines text)).popTo 0
  exact hbuilt.blocks block (List.mem_reverse.mp hblock)

/-! ### Levels of events -/

namespace Event

theorem proper_around (element : Element) {inside : List Event} (helement : element.Proper)
    (hinside : ∀ event ∈ inside, event.Proper) : ∀ event ∈ around element inside, event.Proper := by
  intro event hevent
  simp only [around, List.cons_append, List.mem_cons, List.mem_append, List.not_mem_nil, or_false] at hevent
  rcases hevent with rfl | hevent | rfl
  · exact helement
  · exact hinside event hevent
  · exact helement

mutual

/-- Inline text holds no headings. -/
theorem proper_ofInline : ∀ item : Inline, ∀ event ∈ ofInline item, event.Proper
  | .text chars | .code chars | .html chars => by simp [ofInline, Proper]
  | .softBreak | .hardBreak => by simp [ofInline, Proper]
  | .emphasis content => proper_around .emphasis trivial (proper_ofInlines content)
  | .strong content => proper_around .strong trivial (proper_ofInlines content)
  | .link target content => proper_around (.link target) trivial (proper_ofInlines content)
  | .image target content => by simp [ofInline, Proper]

theorem proper_ofInlines : ∀ items : List Inline, ∀ event ∈ ofInlines items, event.Proper
  | [] => by simp [ofInlines]
  | item :: rest => by
    intro event hevent
    rw [ofInlines] at hevent
    rcases List.mem_append.mp hevent with hevent | hevent
    · exact proper_ofInline item event hevent
    · exact proper_ofInlines rest event hevent

end

theorem proper_cells {read : List Char → List Event} (hread : ∀ content, ∀ event ∈ read content, event.Proper)
    (head : Bool) (columns : List Alignment) (row : List (List Char)) :
    ∀ event ∈ cells read head columns row, event.Proper := by
  fun_induction cells read head columns row with
  | case1 alignment columns cell rest ih =>
      intro event hevent
      rcases List.mem_append.mp hevent with hevent | hevent
      · exact proper_around (.tableCell head alignment) trivial (hread cell) event hevent
      · exact ih event hevent
  | case2 => simp

variable {definitions : List (List Char × Target)}

theorem proper_ofBlocks {blocks : List Block}
    (h : ∀ block ∈ blocks, ∀ tight, ∀ event ∈ ofBlock definitions tight block, event.Proper) (tight : Bool) :
    ∀ event ∈ ofBlocks definitions tight blocks, event.Proper := by
  induction blocks with
  | nil => simp [ofBlocks]
  | cons block rest ih =>
      intro event hevent
      rw [ofBlocks] at hevent
      rcases List.mem_append.mp hevent with hevent | hevent
      · exact h block List.mem_cons_self tight event hevent
      · exact ih (fun other hother => h other (List.mem_cons_of_mem block hother)) event hevent

theorem proper_ofBlock {block : Block} (h : block.Levelled) (tight : Bool) :
    ∀ event ∈ ofBlock definitions tight block, event.Proper := by
  induction h generalizing tight with
  | paragraph text =>
      rw [ofBlock]
      split_ifs
      · exact proper_ofInlines _
      · exact proper_around .paragraph trivial (proper_ofInlines _)
  | @heading level text hlevel => exact proper_around (.heading level) hlevel (proper_ofInlines _)
  | rule => simp [ofBlock, Proper]
  | code info body => exact proper_around (.code _) trivial (by simp [Proper])
  | html body => exact proper_around .html trivial (by simp [Proper])
  | quote _ ih => exact proper_around .quote trivial (proper_ofBlocks ih false)
  | @list start _ _ _ ih => exact proper_around (.list start) trivial (proper_ofBlocks ih _)
  | item _ ih => exact proper_around .item trivial (proper_ofBlocks ih tight)
  | table columns head rows =>
      have hread : ∀ content, ∀ event ∈ ofInlines (Inline.read definitions true content), event.Proper :=
        fun content => proper_ofInlines _
      refine proper_around .table trivial fun event hevent => ?_
      rcases List.mem_append.mp hevent with hevent | hevent
      · exact proper_around .tableHead trivial (proper_cells hread true columns head) event hevent
      · obtain ⟨row, -, hevent⟩ := List.mem_flatMap.mp hevent
        exact proper_around .tableRow trivial (proper_cells hread false columns row) event hevent

end Event

/-- Every heading among the events of a text has a proper level. -/
theorem events_proper (text : String) : ∀ event ∈ events text, event.Proper :=
  Event.proper_ofBlocks (fun block hblock tight => Event.proper_ofBlock (levelled_ofText text.toList block hblock) tight)
    false

end RouteBook.Markdown
