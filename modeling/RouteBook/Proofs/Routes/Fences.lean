import RouteBook.Proofs.Routes.Sections

/-! Plain text in a fence. A text sample stands on the page as it is, between an opening line and a closing line, so
the lines of the page behind the opening are the lines of the text, the closing line and the sections that follow.
The fence ends where it was meant to end exactly if no line of the text closes it. Otherwise the block ends at the
first such line, and the rest of the text stands outside of it. -/

namespace RouteBook.Markdown.Block

open Cursor

/-! ### Closing fences -/

/-- A line that closes a fence of three backticks: at most three spaces, three backticks or more, and nothing but white
space behind them. -/
def isClosingFence (text : List Char) : Bool :=
  (text.takeWhile (· = ' ')).length ≤ 3 && 3 ≤ ((text.dropWhile (· = ' ')).takeWhile (· = '\x60')).length &&
    ((text.dropWhile (· = ' ')).dropWhile (· = '\x60')).all isSpace

/-- The lines behind an opening fence, up to the first line that closes it and behind that line. -/
def fenceSplit : List Line → List Line × List Line
  | [] => ([], [])
  | line :: rest => if isClosingFence line.text then ([], rest) else (line :: (fenceSplit rest).1, (fenceSplit rest).2)

variable {body inside outside rest : List Line} {closing : Line}

theorem fenceSplit_append (hinside : ∀ line ∈ inside, isClosingFence line.text = false)
    (hclosing : isClosingFence closing.text = true) : fenceSplit (inside ++ closing :: rest) = (inside, rest) := by
  induction inside with
  | nil => rw [List.nil_append, fenceSplit, if_pos hclosing]
  | cons line inside ih =>
      have hline : isClosingFence line.text = false := hinside line List.mem_cons_self
      rw [List.cons_append, fenceSplit, if_neg (by simp [hline]),
        ih fun other hother => hinside other (List.mem_cons_of_mem line hother)]

theorem fenceSplit_fst (all : List Line) : ∀ line ∈ (fenceSplit all).1, isClosingFence line.text = false := by
  fun_induction fenceSplit all with
  | case1 => simp
  | case2 line rest hclosing => simp
  | case3 line rest hopen ih =>
      rw [List.forall_mem_cons]
      exact ⟨by simpa using hopen, ih⟩

/-- A block ends at the line that was written to close it exactly if no line before it does. -/
theorem fenceSplit_eq_iff (hclosing : isClosingFence closing.text = true) :
    fenceSplit (body ++ closing :: rest) = (body, rest) ↔ ∀ line ∈ body, isClosingFence line.text = false := by
  constructor
  · intro h
    have hfst := fenceSplit_fst (body ++ closing :: rest)
    rwa [h] at hfst
  · intro h
    exact fenceSplit_append h hclosing

/-- Less than a tab stop of indentation is made of spaces. -/
theorem spacesFrom_of_lt {text : List Char} {column n : Nat} (hstop : column + n = 4)
    (h : (spacesFrom text column n).1 < n) :
    text = List.replicate (spacesFrom text column n).1 ' ' ++ (spacesFrom text column n).2.rest ∧
      (spacesFrom text column n).2.rest.head? ≠ some ' ' := by
  fun_induction spacesFrom text column n with
  | case1 => simp at h
  | case2 column n rest taken cursor heq ih =>
      rw [heq] at ih
      obtain ⟨htext, hhead⟩ := ih (by omega) (by omega)
      refine ⟨?_, hhead⟩
      rw [List.replicate_succ, List.cons_append, ← htext]
  | case3 column n rest width hwidth => omega
  | case4 column n rest width hwidth taken cursor heq ih => omega
  | case5 rest column n hzero hspace htab =>
      refine ⟨rfl, fun hhead => ?_⟩
      obtain ⟨more, rfl⟩ : ∃ more, rest = ' ' :: more := by
        cases rest with
        | nil => cases hhead
        | cons c more => exact ⟨more, by rw [Option.some.inj hhead]⟩
      exact hspace more (n - 1) rfl (by omega)

/-- Whatever line ends a block for the reader closes its fence. -/
theorem isClosingFence_of_endsFence {text : List Char} (h : endsFence 3 text = true) : isClosingFence text = true := by
  rw [endsFence, Bool.and_eq_true, decide_eq_true_eq] at h
  have hspaces : (ofText text).spaces 4 = spacesFrom text 0 4 := by simp [spaces, ofText]
  rw [hspaces] at h
  obtain ⟨hindent, hcloses⟩ := h
  obtain ⟨htext, hhead⟩ := spacesFrom_of_lt rfl hindent
  rw [closesFence, Bool.and_eq_true, decide_eq_true_eq, List.all_eq_true] at hcloses
  generalize (spacesFrom text 0 4).1 = count at htext hindent
  generalize (spacesFrom text 0 4).2.rest = behind at htext hhead hcloses
  have hspace : ∀ c ∈ List.replicate count ' ', decide (c = ' ') = true := by simp
  have hfirst : ∀ c ∈ behind.head?, decide (c = ' ') = false := by
    intro c hc
    exact decide_eq_false fun heq => hhead (heq ▸ hc)
  have htake : behind.takeWhile (· = ' ') = [] := by
    cases behind with
    | nil => rfl
    | cons c behind => exact List.takeWhile_cons_of_neg (by simp [hfirst c rfl])
  have hdrop : behind.dropWhile (· = ' ') = behind := by
    cases behind with
    | nil => rfl
    | cons c behind => exact List.dropWhile_cons_of_neg (by simp [hfirst c rfl])
  have hwhite : (behind.dropWhile (· = '\x60')).all isSpace = true := by
    rw [List.all_eq_true]
    intro c hc
    rw [of_decide_eq_true (hcloses.2 c hc)]
    rfl
  rw [isClosingFence, htext, List.takeWhile_append_of_pos hspace, List.dropWhile_append_of_pos hspace, htake, hdrop, hwhite]
  simp only [List.append_nil, List.length_replicate, Bool.and_true, Bool.and_eq_true, decide_eq_true_eq]
  exact ⟨by omega, hcloses.1⟩

/-- The reader takes the whole body of a block no line of which closes its fence. -/
theorem fencedLines_of_closing (hbody : ∀ line ∈ body, isClosingFence line.text = false)
    (hclosing : endsFence 3 closing.text = true) :
    fencedLines [] 0 '\x60' 3 (body ++ closing :: rest) = (body.flatMap Line.raw, rest) := by
  refine fencedLines_append (fun line hline => ?_) hclosing
  rw [Bool.eq_false_iff]
  intro hends
  exact absurd (isClosingFence_of_endsFence hends) (by simp [hbody line hline])

end RouteBook.Markdown.Block

namespace RouteBook.Routes

open Markdown (Line Unbroken lines)
open Markdown.Block

/-! ### Text samples -/

/-- The line that opens the fence of a text sample. -/
def textFence : List Char := "\x60\x60\x60text".toList

/-- The lines of a text sample. -/
def textLines (text : String) : List Line := lines (text.toList ++ ['\n'])

/-- The lines of a page behind the closing line of a sample, if these routes follow. -/
def linesAfter (routes : List Route) : List Line := ⟨[], true⟩ :: lines (routes.flatMap fun route => route.section.toList)

theorem toList_section_text {route : Route} {text : String} (h : route.sample = .text text) :
    ∃ front, route.section.toList =
      front ++ '\n' :: (textFence ++ '\n' :: (text.toList ++ '\n' :: (closingLine ++ ['\n', '\n']))) := by
  have hlanguage : route.sample.fenced = ("text", text) := by rw [h, Sample.fenced]
  have hfence : "\x60\x60\x60".toList ++ "text".toList = textFence := by decide
  refine ⟨((openingLines route).take 7).flatMap fun line => line ++ ['\n'], ?_⟩
  rw [toList_section]
  simp only [openingLines, hlanguage, hfence, List.take_succ_cons, List.take_zero, List.flatMap_cons, List.flatMap_nil,
    List.append_assoc, List.cons_append, List.nil_append, List.append_nil]

/-- The text stands on the page as it is: behind the opening line come its lines, the closing line and what follows. -/
theorem lines_markdown_text (title : String) (before after : List Route) {route : Route} {text : String}
    (h : route.sample = .text text) :
    ∃ head, lines (markdown title (before ++ route :: after)).toList =
      head ++ ⟨textFence, true⟩ :: (textLines text ++ ⟨closingLine, true⟩ :: linesAfter after) := by
  obtain ⟨front, hsection⟩ := toList_section_text h
  have hpage : (markdown title (before ++ route :: after)).toList =
      ('#' :: titleText title ++ '\n' :: '\n' :: (before.flatMap fun route => route.section.toList) ++ front) ++
        '\n' :: (textFence ++ '\n' :: (text.toList ++ '\n' :: (closingLine ++ '\n' ::
          ([] ++ '\n' :: after.flatMap fun route => route.section.toList)))) := by
    rw [toList_markdown, List.flatMap_append, List.flatMap_cons, hsection]
    simp only [List.append_assoc, List.cons_append, List.nil_append]
  rw [hpage, Markdown.lines_append, Markdown.lines_unbroken (by decide : Unbroken textFence),
    Markdown.lines_append text.toList, Markdown.lines_unbroken (by decide : Unbroken closingLine),
    Markdown.lines_unbroken (by decide : Unbroken [])]
  exact ⟨_, rfl⟩

/-- Without carriage returns the lines of a text are the whole text. -/
theorem flatMap_raw_textLines {text : String} (h : '\r' ∉ text.toList) :
    (textLines text).flatMap Line.raw = text.toList ++ ['\n'] := by
  have hlines := Markdown.lines_pieces h []
  rw [textLines, hlines, show lines [] = [] from rfl, List.append_nil, List.flatMap_map, ← Text.flatMap_pieces]
  rfl

/-- The first line behind the opening of a text sample that closes its fence is the one written for that, exactly if no
line of the text closes it; and then the reader takes all of the text and goes on with what follows. Otherwise the block
ends inside the text, and the lines of the text behind its end stand outside. -/
theorem fence_text_iff (title : String) (before after : List Route) {route : Route} {text : String}
    (h : route.sample = .text text) :
    ∃ head behind, lines (markdown title (before ++ route :: after)).toList = head ++ ⟨textFence, true⟩ :: behind ∧
      behind = textLines text ++ ⟨closingLine, true⟩ :: linesAfter after ∧
      (fenceSplit behind = (textLines text, linesAfter after) ↔
        ∀ line ∈ textLines text, isClosingFence line.text = false) ∧
      ((∀ line ∈ textLines text, isClosingFence line.text = false) →
        fencedLines [] 0 '\x60' 3 behind = ((textLines text).flatMap Line.raw, linesAfter after)) ∧
      ('\r' ∉ text.toList → (textLines text).flatMap Line.raw = text.toList ++ ['\n']) ∧
      ∀ inside closing outside, textLines text = inside ++ closing :: outside →
        (∀ line ∈ inside, isClosingFence line.text = false) → isClosingFence closing.text = true →
          fenceSplit behind = (inside, outside ++ ⟨closingLine, true⟩ :: linesAfter after) ∧
          (endsFence 3 closing.text = true → fencedLines [] 0 '\x60' 3 behind =
            (inside.flatMap Line.raw, outside ++ ⟨closingLine, true⟩ :: linesAfter after)) := by
  obtain ⟨head, hlines⟩ := lines_markdown_text title before after h
  have hclosing : isClosingFence closingLine = true := by decide
  refine ⟨head, _, hlines, rfl, fenceSplit_eq_iff hclosing, fun hopen => fencedLines_of_closing hopen (by decide),
    flatMap_raw_textLines, ?_⟩
  intro inside closing outside hsplit hinside hcloses
  rw [hsplit, List.append_assoc, List.cons_append]
  exact ⟨fenceSplit_append hinside hcloses, fencedLines_of_closing hinside⟩

/-- A text that closes its fence and goes on with a section of its own. -/
def forgery : String := "a\n\x60\x60\x60\n\n## GET /forged\n"

def forger : Route := ⟨"GET", "/a", "a", "a", .text forgery⟩

/-- A route whose section comes behind the forged one. -/
def swallowed : Route := ⟨"GET", "/b", "b", "b", .placeholder⟩

/-- The headings among some blocks. -/
def headings (blocks : List Markdown.Block) : List String :=
  blocks.filterMap fun block =>
    match block with
    | .heading _ content => some (String.ofList content)
    | _ => none

/-- The block ends inside the text, the forged heading is read as one, and the heading behind it is not. -/
theorem fence_text_iff_forger : forger.sample = .text forgery ∧
    (∃ head behind, lines (markdown "t" ([] ++ forger :: [swallowed])).toList = head ++ ⟨textFence, true⟩ :: behind ∧
      fenceSplit behind = ([⟨['a'], true⟩], [⟨[], true⟩, ⟨"## GET /forged".toList, true⟩, ⟨[], true⟩] ++
        ⟨closingLine, true⟩ :: linesAfter [swallowed])) ∧
    headings (Markdown.Tree.ofText (markdown "t" [forger, swallowed]).toList).blocks =
      ["API Documentation (t)", "GET /a", "GET /forged"] := by
  have hsample : forger.sample = .text forgery := rfl
  refine ⟨hsample, ?_, by decide +kernel⟩
  obtain ⟨head, behind, hlines, -, -, -, -, hcut⟩ := fence_text_iff "t" [] [swallowed] hsample
  have htext : textLines forgery = [⟨['a'], true⟩] ++ ⟨"\x60\x60\x60".toList, true⟩ ::
      [⟨[], true⟩, ⟨"## GET /forged".toList, true⟩, ⟨[], true⟩] := by cbv
  exact ⟨head, behind, hlines, (hcut _ _ _ htext (by decide) (by decide)).1⟩

end RouteBook.Routes
