import Mathlib.Tactic
import RouteBook.Proofs.FileTree.Paths
import RouteBook.Proofs.Text.Decoding
import RouteBook.Proofs.Viewer.Confinement

/-! Document names are single names as they are written, and not only as they are read. A path reads as a single
name in many writings, since empty pieces and dots behind a name do not count; the ending tells the name itself from
all the others. So no two document names stand for one file. -/

namespace RouteBook

theorem utf8_intercalate (first : String) (more : List String) :
    utf8 ("/".intercalate (first :: more)) = utf8 first ++ (more.map utf8).flatMap (Path.slash :: ·) := by
  induction more generalizing first with
  | nil => simp
  | cons second more ih =>
      have hslash : utf8 "/" = [Path.slash] := by decide
      rw [String.intercalate_cons_cons, utf8_append, utf8_append, ih second, hslash]
      simp

namespace Path

/-- The writings of a single name: the name, and behind it slashes with nothing or a dot after each of them. -/
theorem components_utf8_eq_normal_iff {name file : String} : Path.components (utf8 name) = [.normal (utf8 file)] ↔
    Plain (utf8 file) ∧
      ∃ marks : List String, (∀ mark ∈ marks, mark = "" ∨ mark = ".") ∧ name = "/".intercalate (file :: marks) := by
  have hhere : utf8 "." = here := by decide
  constructor
  · intro h
    obtain ⟨hplain, marks, hmarks, hpieces⟩ := components_eq_normal_iff.mp h
    have hread : ∀ mark ∈ marks, (lossy mark = "" ∨ lossy mark = ".") ∧ utf8 (lossy mark) = mark := by
      intro mark hmark
      rcases hmarks mark hmark with rfl | rfl
      · exact ⟨Or.inl (lossy_utf8 ""), congrArg utf8 (lossy_utf8 "")⟩
      · rw [← hhere, lossy_utf8]
        exact ⟨Or.inr rfl, rfl⟩
    refine ⟨hplain, marks.map lossy, ?_, utf8_injective ?_⟩
    · intro mark hmark
      obtain ⟨bytes, hbytes, rfl⟩ := List.mem_map.mp hmark
      exact (hread bytes hbytes).1
    · have hback : (marks.map lossy).map utf8 = marks := by
        rw [List.map_map]
        exact (List.map_congr_left fun mark hmark => (hread mark hmark).2).trans (List.map_id' marks)
      rw [utf8_intercalate, hback]
      exact (Text.pieces_eq_cons_iff.mp hpieces).1
  · rintro ⟨hplain, marks, hmarks, rfl⟩
    have hbytes : ∀ mark ∈ marks.map utf8, mark = [] ∨ mark = here := by
      intro mark hmark
      obtain ⟨text, htext, rfl⟩ := List.mem_map.mp hmark
      rcases hmarks text htext with rfl | rfl
      · exact Or.inl rfl
      · exact Or.inr hhere
    have hsolid : ∀ mark ∈ marks.map utf8, slash ∉ mark := by
      intro mark hmark
      rcases hbytes mark hmark with rfl | rfl <;> decide
    exact components_eq_normal_iff.mpr ⟨hplain, marks.map utf8, hbytes,
      Text.pieces_eq_cons_iff.mpr ⟨utf8_intercalate file marks, hplain.noSlash, hsolid⟩⟩

end Path

namespace Viewer

/-- A document name is written as it is read. -/
theorem eq_of_components {name file : String} (h : isDocumentName name = true)
    (hcomponents : Path.components (utf8 name) = [.normal (utf8 file)]) : name = file := by
  rw [Path.components_of_plain (plain_of_isDocumentName h)] at hcomponents
  exact utf8_injective (Path.Component.normal.inj (List.head_eq_of_cons_eq hcomponents))

/-- Document names are the names that end in `.md` and hold neither slashes nor backslashes. Of all the writings that are
read as a single name, it is the name itself that may be one, and nothing that is written in several pieces is. -/
theorem isDocumentName_exact (name : String) :
    (isDocumentName name = true ↔ ".md".toList <:+ name.toList ∧ '/' ∉ name.toList ∧ '\\' ∉ name.toList) ∧
      (∀ file : String, Path.components (utf8 name) = [.normal (utf8 file)] ↔
        Path.Plain (utf8 file) ∧
          ∃ marks : List String, (∀ mark ∈ marks, mark = "" ∨ mark = ".") ∧ name = "/".intercalate (file :: marks)) ∧
      (∀ file : String, Path.components (utf8 name) = [.normal (utf8 file)] → isDocumentName name = true →
        name = file) ∧
      ∀ (first second : String) (more : List String), name = "/".intercalate (first :: second :: more) →
        isDocumentName name = false := by
  refine ⟨?_, fun file => Path.components_utf8_eq_normal_iff, fun file hread h => eq_of_components h hread, ?_⟩
  · rw [isDocumentName_iff]
    exact ⟨fun ⟨hslash, hback, hsuffix⟩ => ⟨hsuffix, hslash, hback⟩,
      fun ⟨hsuffix, hslash, hback⟩ => ⟨hslash, hback, hsuffix⟩⟩
  · rintro first second more rfl
    have hslash : '/' ∈ ("/".intercalate (first :: second :: more)).toList := by
      rw [String.intercalate_cons_cons, String.toList_append, String.toList_append]
      simp
    exact Bool.eq_false_iff.mpr fun h => (isDocumentName_iff.mp h).1 hslash

/-- A name with marks behind it is read as the name, and is no document name. -/
theorem isDocumentName_exact_marked :
    Path.components (utf8 "a.md//./") = [.normal (utf8 "a.md")] ∧ isDocumentName "a.md" = true ∧
      isDocumentName "a.md//./" = false :=
  ⟨((isDocumentName_exact "a.md//./").2.1 "a.md").mpr
      ⟨⟨by decide, by decide, by decide, by decide⟩, ["", ".", ""], by decide, by decide⟩,
    (isDocumentName_exact "a.md").1.mpr (by decide),
    (isDocumentName_exact "a.md//./").2.2.2 "a.md" "" [".", ""] (by decide)⟩

end Viewer

end RouteBook
