import RouteBook.Markdown.Leaf
import RouteBook.Markdown.Link
import RouteBook.Text.Blank

/-! The inline text of paragraphs, headings and table cells. It is read from left to right into pieces:
code spans, raw HTML, automatic links and escapes are settled at once, a closing bracket looks back for the
bracket that opens it, and runs of `*` and `_` wait until the pieces between two brackets are complete. -/

namespace RouteBook.Markdown

inductive Inline
  | text (chars : List Char)
  | code (chars : List Char)
  | html (chars : List Char)
  | softBreak
  | hardBreak
  | emphasis (content : List Inline)
  | strong (content : List Inline)
  | link (target : Target) (content : List Inline)
  | image (target : Target) (content : List Inline)

namespace Inline

/-- A run of `*` or `_`: how many of its characters are left, how many it had, and what it can do. -/
structure Run where
  mark : Char
  count : Nat
  length : Nat
  canOpen : Bool
  canClose : Bool

def Run.both (run : Run) : Bool := run.canOpen && run.canClose

inductive Piece
  | done (inline : Inline)
  | run (run : Run)
  /-- An opening bracket and the text behind it; links do not nest, so it may have become inactive. -/
  | bracket (isImage : Bool) (active : Bool) (behind : List Char)

/-- An opening run and what stands behind it so far, last first. -/
structure Pending where
  run : Run
  content : List Inline

def runText (run : Run) : Inline := .text (List.replicate run.count run.mark)

/-- Adds to the content of the innermost pending run, or to the content outside all of them. -/
def addTo (item : Inline) : List Pending × List Inline → List Pending × List Inline
  | ([], base) => ([], item :: base)
  | (top :: below, base) => ({ top with content := item :: top.content } :: below, base)

/-- The innermost pending run becomes plain text. -/
def release (state : List Pending × List Inline) : List Pending × List Inline :=
  match state with
  | ([], base) => ([], base)
  | (top :: [], base) => ([], top.content ++ runText top.run :: base)
  | (top :: next :: below, base) =>
    ({ next with content := top.content ++ runText top.run :: next.content } :: below, base)

/-- Whether a run can be closed by another one: of two runs that can do both, the lengths must not add up
to a multiple of three unless both are multiples of three. -/
def closes (closer opener : Run) : Bool :=
  opener.mark = closer.mark &&
    ((!closer.both && !opener.both) || (closer.length + opener.length) % 3 ≠ 0 || closer.length % 3 = 0)

/-- Wraps content in `count` marks, two at a time from the inside. -/
def wrap : Nat → List Inline → List Inline
  | 0, content => content
  | 1, content => [.emphasis content]
  | n + 2, content => wrap n [.strong content]

/-- Closes pending runs as long as the closing run has marks left and one that matches is pending. -/
def close : Nat → Run → List Pending × List Inline → Run × (List Pending × List Inline)
  | 0, run, state => (run, state)
  | fuel + 1, run, state =>
    if run.count = 0 then (run, state)
    else
      match state.1.findIdx? (fun pending => closes run pending.run) with
      | none => (run, state)
      | some depth =>
        match (List.range depth).foldl (fun s _ => release s) state with
        | ([], base) => (run, ([], base))
        | (top :: below, base) =>
          let used := min run.count top.run.count
          let wrapped := wrap used top.content.reverse
          let left := top.run.count - used
          let next :=
            if left = 0 then wrapped.foldl (fun s item => addTo item s) (below, base)
            else ({ run := { top.run with count := left }, content := wrapped.reverse } :: below, base)
          close fuel { run with count := run.count - used } next

def resolvePiece (state : List Pending × List Inline) : Piece → List Pending × List Inline
  | .done item => addTo item state
  | .bracket isImage _ _ => addTo (.text (if isImage then ['!', '['] else ['['])) state
  | .run run =>
    let (run, state) := if run.canClose then close run.count run state else (run, state)
    if run.count = 0 then state
    else if run.canOpen then (⟨run, []⟩ :: state.1, state.2)
    else addTo (runText run) state

/-- Settles the runs among some pieces; brackets that found no partner are text. -/
def resolve (pieces : List Piece) : List Inline :=
  let state := pieces.foldl resolvePiece ([], [])
  ((List.range state.1.length).foldl (fun s _ => release s) state).2.reverse

/-- The content of a code span closed by a run of exactly `count` backticks, and what follows it. -/
def codeSpan? (count : Nat) : Nat → List Char → Option (List Char × List Char)
  | 0, _ => none
  | fuel + 1, source =>
    let before := source.takeWhile (· ≠ '\x60')
    let ticks := (source.drop before.length).takeWhile (· = '\x60')
    let behind := source.drop (before.length + ticks.length)
    if ticks.isEmpty then none
    else if ticks.length = count then some (before, behind)
    else (codeSpan? count fuel behind).map fun (more, left) => (before ++ ticks ++ more, left)

/-- Escaped bars of a table cell lose their backslash. -/
def unescapeBars : List Char → List Char
  | '\\' :: '|' :: rest => '|' :: unescapeBars rest
  | c :: rest => c :: unescapeBars rest
  | [] => []

/-- Line breaks are spaces; one space is taken off each side unless there is nothing else. -/
def codeText (inTable : Bool) (raw : List Char) : List Char :=
  let flat := raw.map fun c => if c = '\n' then ' ' else c
  let flat := if inTable then unescapeBars flat else flat
  if flat.all (· = ' ') then flat
  else
    match flat, flat.getLast? with
    | ' ' :: rest, some ' ' => rest.dropLast
    | _, _ => flat

/-- An absolute URI in angle brackets, read after the opening one. -/
def autoUri? (text : List Char) : Option (List Char × List Char) :=
  match text with
  | c :: _ =>
    let scheme := text.takeWhile fun d => d.isAlphanum || d = '.' || d = '-' || d = '+'
    if c.isAlpha && 2 ≤ scheme.length && scheme.length ≤ 32 then
      match text.drop scheme.length with
      | ':' :: rest =>
        let body := rest.takeWhile fun d => !(d.toNat ≤ 0x20 || d = '<' || d = '>')
        match rest.drop body.length with
        | '>' :: behind => some (scheme ++ ':' :: body, behind)
        | _ => none
      | _ => none
    else none
  | [] => none

def isMailChar (c : Char) : Bool := c.isAlphanum || c ∈ ".!#$%&'*+/=?^_\x60\x7b|\x7d~-".toList

def isMailLabel (label : List Char) : Bool :=
  1 ≤ label.length && label.length ≤ 63 && label.head? ≠ some '-' && label.getLast? ≠ some '-'

/-- A mail address in angle brackets, read after the opening one. -/
def autoMail? (text : List Char) : Option (List Char × List Char) :=
  let user := text.takeWhile isMailChar
  match text.drop user.length with
  | '@' :: rest =>
    let host := rest.takeWhile fun c => c.isAlphanum || c = '-' || c = '.'
    match rest.drop host.length with
    | '>' :: behind =>
      if !user.isEmpty && (Text.pieces '.' host).all isMailLabel then some (user ++ '@' :: host, behind) else none
    | _ => none
  | _ => none

/-- Whether a run can open: something follows it that is no blank, and inside a word only `*` can. -/
def canOpen (mark : Char) (before after : Option Char) : Bool :=
  match after with
  | none => false
  | some next =>
    if Text.isBlank next then false
    else if mark = '*' && !Text.isPunctuation next then true
    else
      match before with
      | none => true
      | some previous => Text.isBlank previous || Text.isPunctuation previous

def canClose (mark : Char) (before after : Option Char) : Bool :=
  match before with
  | none => false
  | some previous =>
    if Text.isBlank previous then false
    else
      match after with
      | none => true
      | some next =>
        if mark = '*' && !Text.isPunctuation previous then true
        else Text.isBlank next || Text.isPunctuation next

/-- The pieces so far, last first, cut at the last open bracket. -/
def lastBracket? : List Piece → Option (List Piece × (Bool × Bool × List Char) × List Piece)
  | [] => none
  | .bracket isImage active behind :: before => some ([], (isImage, active, behind), before)
  | piece :: before => (lastBracket? before).map fun (inside, found, rest) => (piece :: inside, found, rest)

def deactivate : Piece → Piece
  | .bracket false _ behind => .bracket false false behind
  | other => other

/-- The target of a reference: a label that follows, or the text of the link itself; and what is behind. -/
def reference? (definitions : List (List Char × Target)) (own : List Char) (text : List Char) :
    Option (Target × List Char) :=
  let ownTarget : Option Target :=
    match Link.label? (own ++ [']']) with
    | some (label, []) => definitions.lookup label
    | _ => none
  match text with
  | '[' :: ']' :: behind => ownTarget.map fun target => (target, behind)
  | '[' :: rest =>
    match Link.label? rest with
    | some (label, behind) => (definitions.lookup label).map fun target => (target, behind)
    | none => ownTarget.map fun target => (target, text)
  | _ => ownTarget.map fun target => (target, text)

/-- The pieces after a closing bracket, and what follows it. -/
def closeBracket (definitions : List (List Char × Target)) (pieces : List Piece) (rest : List Char) :
    List Piece × List Char :=
  match lastBracket? pieces with
  | none => (.done (.text [']']) :: pieces, rest)
  | some (inside, (isImage, active, behind), before) =>
    let plain : List Piece :=
      .done (.text [']']) :: inside ++ .done (.text (if isImage then ['!', '['] else ['['])) :: before
    if !active then (plain, rest)
    else
      let own := behind.take (behind.length - (rest.length + 1))
      let target :=
        match Link.inline? rest with
        | some found => some found
        | none => reference? definitions own rest
      match target with
      | none => (plain, rest)
      | some (target, left) =>
        let content := resolve inside.reverse
        if isImage then (.done (.image target content) :: before, left)
        else (.done (.link target content) :: before.map deactivate, left)

/-- One step at the character `c`, which stands behind `before`: the pieces with what it adds, and the text
behind that. -/
def step (definitions : List (List Char × Target)) (inTable : Bool) (before : Option Char)
    (pieces : List Piece) (c : Char) (rest : List Char) : List Piece × List Char :=
  let plain : List Piece × List Char := (.done (.text [c]) :: pieces, rest)
  match c with
  | '\\' =>
    match rest with
    | '\n' :: behind => (.done .hardBreak :: pieces, behind.dropWhile fun d => d = ' ' || d = '\t')
    | d :: behind => if Text.isAsciiPunctuation d then (.done (.text [d]) :: pieces, behind) else plain
    | [] => plain
  | '\n' => (.done .softBreak :: pieces, rest.dropWhile fun d => d = ' ' || d = '\t')
  | '\x60' =>
    let count := 1 + (rest.takeWhile (· = '\x60')).length
    let behind := rest.drop (count - 1)
    match codeSpan? count (behind.length + 1) behind with
    | some (raw, left) => (.done (.code (codeText inTable raw)) :: pieces, left)
    | none => (.done (.text (List.replicate count '\x60')) :: pieces, behind)
  | '<' =>
    match autoUri? rest with
    | some (uri, behind) => (.done (.link ⟨uri, []⟩ [.text uri]) :: pieces, behind)
    | none =>
      match autoMail? rest with
      | some (mail, behind) => (.done (.link ⟨"mailto:".toList ++ mail, []⟩ [.text mail]) :: pieces, behind)
      | none =>
        match Tag.inline? rest with
        | some behind => (.done (.html (c :: rest.take (rest.length - behind.length))) :: pieces, behind)
        | none => plain
  | '&' =>
    match Entity.read? rest with
    | some (chars, behind) => (.done (.text chars) :: pieces, behind)
    | none => plain
  | '!' =>
    match rest with
    | '[' :: behind => (.bracket true true behind :: pieces, behind)
    | _ => plain
  | '[' => (.bracket false true rest :: pieces, rest)
  | ']' => closeBracket definitions pieces rest
  | _ =>
    if c = '*' || c = '_' then
      let count := 1 + (rest.takeWhile (· = c)).length
      let behind := rest.drop (count - 1)
      (.run ⟨c, count, count, canOpen c before behind.head?, canClose c before behind.head?⟩ :: pieces, behind)
    else if isSpace c then
      let blanks := c :: rest.takeWhile isSpace
      match rest.drop (blanks.length - 1) with
      | '\n' :: behind =>
        let next := behind.dropWhile fun d => d = ' ' || d = '\t'
        (.done (if 2 ≤ blanks.length then .hardBreak else .softBreak) :: pieces, next)
      | [] => (pieces, [])
      | behind => (.done (.text blanks) :: pieces, behind)
    else
      let word := c :: rest.takeWhile fun d => d.isAlphanum || 0x80 ≤ d.toNat
      (.done (.text word) :: pieces, rest.drop (word.length - 1))

/-- The pieces of a text, last first. Each step takes at least one character. -/
def pieces (definitions : List (List Char × Target)) (inTable : Bool) :
    Nat → Option Char → List Piece → List Char → List Piece
  | 0, _, found, _ => found
  | _, _, found, [] => found
  | fuel + 1, before, found, c :: rest =>
    let (found, left) := step definitions inTable before found c rest
    let taken := (c :: rest).take (rest.length + 1 - left.length)
    pieces definitions inTable fuel taken.getLast? found left

/-- Reads inline text. -/
def read (definitions : List (List Char × Target)) (inTable : Bool) (text : List Char) : List Inline :=
  resolve (pieces definitions inTable (text.length + 1) none [] text).reverse

end Inline

end RouteBook.Markdown
