import RouteBook.Proofs.FileTree.LinkFree
import RouteBook.Proofs.Generator.Writing
import RouteBook.Proofs.Text.Traversal

/-! The files that documents are written to. The name of a file determines the name of its document, and the
name of a document that was read from a file holds no slash, so in one directory documents of different names
have different paths, and without symbolic links different files. -/

namespace RouteBook.Generator

open OpenApi (Document)
open FileTree

variable {format : Format} {dir : Path} {tree left : FileTree} {options : Options} {name other : String}
  {found : List (String × Document)}

/-! ### Names -/

/-- What the name of a file has after the name of its document. -/
def outputSuffix : Format → String
  | .markdown => "-docs.md"
  | .openapi => "-openapi.yaml"

theorem outputName_eq (format : Format) (name : String) : outputName format name = name ++ outputSuffix format := by
  cases format <;> rfl

theorem outputName_injective (h : outputName format name = outputName format other) : name = other := by
  rw [outputName_eq, outputName_eq] at h
  have hlist := congrArg String.toList h
  rw [String.toList_append, String.toList_append] at hlist
  exact String.toList_injective (List.append_cancel_right hlist)

/-- The file of a document whose name holds no slash has a plain name. -/
theorem plain_outputName (h : '/' ∉ name.toList) : Path.Plain (utf8 (outputName format name)) := by
  have hlength : 2 < (utf8 (outputName format name)).length := by
    rw [outputName_eq, utf8_append, List.length_append]
    have : 2 < (utf8 (outputSuffix format)).length := by cases format <;> decide
    omega
  refine ⟨?_, ?_, ?_, ?_⟩
  · intro heq
    simp [heq] at hlength
  · intro heq
    simp [heq, Path.here] at hlength
  · intro heq
    simp [heq, Path.above] at hlength
  · intro hmem
    have hslash : '/' ∈ (outputName format name).toList := (asciiByte_mem_utf8_iff (by decide)).mp hmem
    rw [outputName_eq, String.toList_append, List.mem_append] at hslash
    rcases hslash with hslash | hslash
    · exact h hslash
    · revert hslash
      cases format <;> decide

/-- The name of a document in a file holds no slash. -/
theorem not_mem_documentName (path : Path) : '/' ∉ (documentName path).toList := by
  unfold documentName
  cases hstem : path.stem? with
  | none => decide
  | some stem =>
      intro hmem
      rw [Option.map_some, Option.getD_some, lossy, String.toList_ofList] at hmem
      exact Path.not_mem_of_stem? hstem (Bytes.asciiByte_mem_of_lossyChars (by decide) (by decide) hmem)

/-! ### Documents -/

theorem name_of_loadDocument {path : Path} {document : String × Document} (h : loadDocument tree path = .ok document) :
    document.1 = documentName path := by
  unfold loadDocument at h
  split at h
  · cases h
  · split at h
    · cases h
    · cases h
      rfl

/-- Documents that are read from files have names that hold no slash. -/
theorem noSlash_of_documents {input : Path} (hinput : options.input = some input) (h : documents tree options = .ok found) :
    ∀ document ∈ found, '/' ∉ document.1.toList := by
  intro document hdocument
  simp only [documents, hinput] at h
  cases hinputs : inputs tree input with
  | error e => rw [hinputs] at h; cases h
  | ok files =>
      rw [hinputs] at h
      simp only [bind, Except.bind] at h
      split_ifs at h
      obtain ⟨path, -, hload⟩ := exists_of_mem_mapM h hdocument
      rw [name_of_loadDocument hload]
      exact not_mem_documentName path

/-- A run works on one document, or on documents whose names hold no slash. -/
theorem names_of_documents (h : documents tree options = .ok found) :
    (∃ document, found = [document]) ∨ ∀ document ∈ found, '/' ∉ document.1.toList := by
  cases hinput : options.input with
  | none =>
      simp only [documents, hinput] at h
      cases h
      exact Or.inl ⟨_, rfl⟩
  | some input => exact Or.inr (noSlash_of_documents hinput h)

/-! ### Files of their own -/

theorem outputPath_injective (hname : '/' ∉ name.toList) (hother : '/' ∉ other.toList)
    (h : outputPath format dir name = outputPath format dir other) : name = other := by
  have hfile := Path.join_injective (plain_outputName hname).noSlash (plain_outputName hother).noSlash h
  exact outputName_injective (utf8_injective hfile)

theorem nodup_outputPath_iff (h : documents tree options = .ok found) :
    (found.map fun document => outputPath format dir document.1).Nodup ↔ (found.map Prod.fst).Nodup := by
  rcases names_of_documents h with ⟨document, rfl⟩ | hnames
  · simp
  · have hmap : (found.map fun document => outputPath format dir document.1) =
        (found.map Prod.fst).map (outputPath format dir) := by
      rw [List.map_map]
      rfl
    rw [hmap]
    refine ⟨List.Nodup.of_map _, List.Nodup.map_on ?_⟩
    intro name hname other hother
    obtain ⟨document, hdocument, rfl⟩ := List.mem_map.mp hname
    obtain ⟨document', hdocument', rfl⟩ := List.mem_map.mp hother
    exact outputPath_injective (hnames document hdocument) (hnames document' hdocument')

/-- Without links documents with one target have one name. -/
theorem eq_of_sameTarget {a b : String × Document} (hclear : ∀ loc, left.Clear loc)
    (h : documents tree options = .ok found) (ha : a ∈ found) (hb : b ∈ found)
    (hsame : SameTarget left (outputPath format dir a.1) (outputPath format dir b.1)) : a.1 = b.1 := by
  rcases names_of_documents h with ⟨document, rfl⟩ | hnames
  · rw [List.mem_singleton.mp ha, List.mem_singleton.mp hb]
  · obtain ⟨loc, hlocA, hlocB⟩ := hsame
    have hlastA := getLast?_of_locate_join hlocA hclear (plain_outputName (hnames a ha))
    have hlastB := getLast?_of_locate_join hlocB hclear (plain_outputName (hnames b hb))
    exact outputName_injective (utf8_injective (Option.some.inj (hlastA.symm.trans hlastB)))

/-- Every document has a path of its own, which holds its text. -/
structure Kept (format : Format) (dir : Path) (found : List (String × Document)) (left : FileTree) : Prop where
  distinct : (found.map fun document => outputPath format dir document.1).Nodup
  holds : ∀ document ∈ found,
    left.readFile (outputPath format dir document.1) = .ok (utf8 (render format document.1 document.2))

/-- Documents that have one target have one text. -/
def Agreeing (format : Format) (dir : Path) (found : List (String × Document)) (left : FileTree) : Prop :=
  ∀ a ∈ found, ∀ b ∈ found, SameTarget left (outputPath format dir a.1) (outputPath format dir b.1) →
    render format a.1 a.2 = render format b.1 b.2

/-- The path of each document holds the text of the last document with the same target. -/
def LastKept (format : Format) (dir : Path) (found : List (String × Document)) (left : FileTree) : Prop :=
  ∀ document ∈ found, ∃ before winner after, found = before ++ winner :: after ∧
    SameTarget left (outputPath format dir document.1) (outputPath format dir winner.1) ∧
    (∀ later ∈ after, ¬SameTarget left (outputPath format dir document.1) (outputPath format dir later.1)) ∧
    left.readFile (outputPath format dir document.1) = .ok (utf8 (render format winner.1 winner.2))

theorem Wrote.lastKept (h : Wrote dir (found.map (outputFile format dir)) tree left) :
    LastKept format dir found left := by
  intro document hdocument
  obtain ⟨before, winner, after, hsplit, hsame, hafter, hread⟩ :=
    h.readFile (List.mem_map_of_mem (f := outputFile format dir) hdocument)
  obtain ⟨before, rest, rfl, rfl, hrest⟩ := List.map_eq_append_iff.mp hsplit
  obtain ⟨winner, after, rfl, rfl, rfl⟩ := List.map_eq_cons_iff.mp hrest
  refine ⟨before, winner, after, rfl, hsame, fun later hlater => ?_, hread⟩
  exact hafter _ (List.mem_map_of_mem hlater)

/-- Without links each file holds the text of the last document of its name. -/
theorem Wrote.last_of_name (h : Wrote dir (found.map (outputFile format dir)) tree left) (hclear : ∀ loc, left.Clear loc)
    {source : FileTree} (hfound : documents source options = .ok found) (hname : name ∈ found.map Prod.fst) :
    ∃ before document after, found = before ++ (name, document) :: after ∧ name ∉ after.map Prod.fst ∧
      left.readFile (outputPath format dir name) = .ok (utf8 (render format name document)) := by
  obtain ⟨document, hdocument, rfl⟩ := List.mem_map.mp hname
  obtain ⟨before, winner, after, hsplit, hsame, hafter, hread⟩ := h.lastKept document hdocument
  have hwinner : document.1 = winner.1 := eq_of_sameTarget hclear hfound hdocument (by simp [hsplit]) hsame
  refine ⟨before, winner.2, after, by rw [hwinner, hsplit], fun hmem => ?_, by rw [hread, hwinner]⟩
  obtain ⟨later, hlater, heq⟩ := List.mem_map.mp hmem
  obtain ⟨loc, hloc, -⟩ := hsame
  exact hafter later hlater ⟨loc, hloc, by rw [heq, hloc]⟩

/-- No document is lost if and only if names differ and whatever else leads to one file has one text. -/
theorem Wrote.kept_iff (h : Wrote dir (found.map (outputFile format dir)) tree left)
    {source : FileTree} (hfound : documents source options = .ok found) :
    Kept format dir found left ↔ (found.map Prod.fst).Nodup ∧ Agreeing format dir found left := by
  constructor
  · rintro ⟨hdistinct, hholds⟩
    refine ⟨(nodup_outputPath_iff hfound).mp hdistinct, ?_⟩
    rintro a ha b hb ⟨loc, hlocA, hlocB⟩
    have hread : left.readFile (outputPath format dir a.1) = left.readFile (outputPath format dir b.1) := by
      rw [FileTree.readFile, FileTree.readFile, hlocA, hlocB]
    rw [hholds a ha, hholds b hb] at hread
    exact utf8_injective (Except.ok.inj hread)
  · rintro ⟨hnames, hagree⟩
    refine ⟨(nodup_outputPath_iff hfound).mpr hnames, fun document hdocument => ?_⟩
    obtain ⟨before, winner, after, hsplit, hsame, -, hread⟩ := h.lastKept document hdocument
    have hwinner : winner ∈ found := by simp [hsplit]
    rw [hread, hagree document hdocument winner hwinner hsame]

/-- Without links documents of different names do not meet. -/
theorem agreeing_of_clear (hclear : ∀ loc, left.Clear loc) (hfound : documents tree options = .ok found)
    (hnames : (found.map Prod.fst).Nodup) : Agreeing format dir found left := by
  intro a ha b hb hsame
  have heq : a = b := List.inj_on_of_nodup_map hnames ha hb (eq_of_sameTarget hclear hfound ha hb hsame)
  rw [heq]

end RouteBook.Generator
