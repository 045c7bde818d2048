import RouteBook.Markdown.Line
import RouteBook.Proofs.FileTree.Paths

/-! The lines of a text. A line feed ends a line whatever stands before it, so a text that ends in one can be cut
off the front of a longer text; and a text without carriage returns has the pieces between its line feeds for
lines. -/

namespace RouteBook.Markdown

/-- A text that holds no line break. -/
structure Unbroken (text : List Char) : Prop where
  noFeed : '\n' ∉ text
  noReturn : '\r' ∉ text

instance (text : List Char) : Decidable (Unbroken text) :=
  decidable_of_iff ('\n' ∉ text ∧ '\r' ∉ text) ⟨fun h => ⟨h.1, h.2⟩, fun h => ⟨h.noFeed, h.noReturn⟩⟩

theorem unbroken_append {front back : List Char} (hfront : Unbroken front) (hback : Unbroken back) :
    Unbroken (front ++ back) :=
  ⟨by simp [hfront.noFeed, hback.noFeed], by simp [hfront.noReturn, hback.noReturn]⟩

theorem linesFrom_return {c : Char} (hc : c ≠ '\n') (current rest : List Char) :
    linesFrom current ('\r' :: c :: rest) = ⟨current.reverse, true⟩ :: linesFrom [] (c :: rest) :=
  linesFrom.eq_3 current (c :: rest) fun _ heq => hc (List.cons_eq_cons.mp heq).1

/-- The rest of a text starts a line of its own behind a line feed. -/
theorem linesFrom_append (current text rest : List Char) :
    linesFrom current (text ++ '\n' :: rest) = linesFrom current (text ++ ['\n']) ++ lines rest := by
  fun_induction linesFrom current text with
  | case1 current | case2 current => simp [linesFrom, lines]
  | case3 current behind ih => simpa [linesFrom] using ih
  | case4 current behind hfeed ih =>
      cases behind with
      | nil => simp [linesFrom, lines]
      | cons c behind =>
          have hc : c ≠ '\n' := fun heq => hfeed behind (by rw [heq])
          simp only [List.cons_append] at ih ⊢
          rw [linesFrom_return hc, linesFrom_return hc, ih, List.cons_append]
  | case5 current behind ih => simpa [linesFrom] using ih
  | case6 current c behind _ hreturn hfeed ih =>
      rw [List.cons_append, List.cons_append, linesFrom.eq_5 _ _ _ (fun _ h => absurd h hreturn) hreturn hfeed,
        linesFrom.eq_5 _ _ _ (fun _ h => absurd h hreturn) hreturn hfeed, ih]

theorem lines_append (text rest : List Char) : lines (text ++ '\n' :: rest) = lines (text ++ ['\n']) ++ lines rest :=
  linesFrom_append [] text rest

theorem linesFrom_unbroken {text : List Char} (h : Unbroken text) (current : List Char) :
    linesFrom current (text ++ ['\n']) = [⟨current.reverse ++ text, true⟩] := by
  induction text generalizing current with
  | nil => simp [linesFrom]
  | cons c text ih =>
      have hfeed : c ≠ '\n' := fun heq => h.noFeed (heq ▸ List.mem_cons_self)
      have hreturn : c ≠ '\r' := fun heq => h.noReturn (heq ▸ List.mem_cons_self)
      have htext : Unbroken text :=
        ⟨fun hmem => h.noFeed (List.mem_cons_of_mem c hmem), fun hmem => h.noReturn (List.mem_cons_of_mem c hmem)⟩
      rw [List.cons_append, linesFrom.eq_5 _ _ _ (fun _ heq => absurd heq hreturn) hreturn hfeed, ih htext]
      simp

/-- A text without line breaks is one line. -/
theorem lines_unbroken {text : List Char} (h : Unbroken text) (rest : List Char) :
    lines (text ++ '\n' :: rest) = ⟨text, true⟩ :: lines rest := by
  rw [lines_append, lines, linesFrom_unbroken h]
  rfl

/-- The lines of texts that hold no line break, each of them ended. -/
theorem lines_flatMap {texts : List (List Char)} (h : ∀ text ∈ texts, Unbroken text) (rest : List Char) :
    lines ((texts.flatMap fun text => text ++ ['\n']) ++ rest) = (texts.map fun text => ⟨text, true⟩) ++ lines rest := by
  induction texts with
  | nil => rfl
  | cons text texts ih =>
      rw [List.flatMap_cons, List.append_assoc, List.append_assoc, List.singleton_append,
        lines_unbroken (h text List.mem_cons_self), ih fun other hother => h other (List.mem_cons_of_mem text hother)]
      rfl

/-- Without carriage returns the lines are the pieces between line feeds. -/
theorem lines_pieces {text : List Char} (h : '\r' ∉ text) (rest : List Char) :
    lines (text ++ '\n' :: rest) = ((Text.pieces '\n' text).map fun piece => ⟨piece, true⟩) ++ lines rest := by
  have hpieces : ∀ piece ∈ Text.pieces '\n' text, Unbroken piece := by
    intro piece hpiece
    exact ⟨Text.not_mem_of_mem_pieces hpiece, fun hmem => h (Text.subset_of_mem_pieces hpiece hmem)⟩
  have htext : text ++ '\n' :: rest = (text ++ ['\n']) ++ rest := by simp
  rw [htext, ← Text.flatMap_pieces, lines_flatMap hpieces]

end RouteBook.Markdown
