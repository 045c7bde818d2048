import RouteBook.Proofs.Generator.Runs

/-! Printing. A standard output takes of documents one after another what it would take of one long text, so the two
ways of output give the same bytes: a run that prints gives what a run with an output directory writes into its files,
in the order in which it returns them, as far as there is room. -/

namespace RouteBook.Generator

open OpenApi (Document)
open FileTree

variable {format : Format} {limit : Option Nat} {tree left : FileTree} {arguments : Arguments} {options : Options}
  {dir : Path} {found : List (String × Document)} {failure : Failure} {first taken : Bytes} {remaining : Option Nat}

/-! ### One text after another -/

/-- What comes after a text that does not fit is not taken. -/
theorem printOutput_append_of_error (h : printOutput limit first = (taken, .error failure)) (second : Bytes) :
    printOutput limit (first ++ second) = (taken, .error failure) := by
  cases limit with
  | none => cases h
  | some room =>
      rw [printOutput] at h
      split_ifs at h with hfits
      · cases h
      · have hlong : ¬(first ++ second).length ≤ room := by
          rw [List.length_append]
          omega
        rw [printOutput, if_neg hlong, List.take_append_of_le_length (by omega), h]

/-- What comes after a text that fits is taken as far as the text leaves room. -/
theorem printOutput_append_of_ok (h : printOutput limit first = (taken, .ok remaining)) (second : Bytes) :
    printOutput limit (first ++ second) = (taken ++ (printOutput remaining second).1, (printOutput remaining second).2) := by
  cases limit with
  | none =>
      cases h
      rfl
  | some room =>
      rw [printOutput] at h
      split_ifs at h with hfits
      · cases h
        by_cases hsecond : second.length ≤ room - first.length
        · have hall : (first ++ second).length ≤ room := by
            rw [List.length_append]
            omega
          rw [printOutput, printOutput, if_pos hall, if_pos hsecond, List.length_append, Nat.sub_add_eq]
        · have hlong : ¬(first ++ second).length ≤ room := by
            rw [List.length_append]
            omega
          rw [printOutput, printOutput, if_neg hlong, if_neg hsecond, List.take_append, List.take_of_length_le hfits]
      · cases h

/-- The room there is decides how much of a text is taken and whether that is a failure. -/
theorem printOutput_some (room : Nat) (text : Bytes) :
    (printOutput (some room) text).1 = text.take room ∧
      (printOutput (some room) text).2.map (fun _ => ([] : List Path)) =
        if text.length ≤ room then .ok [] else .error (.output .outputFull) := by
  by_cases hfits : text.length ≤ room
  · rw [printOutput, if_pos hfits, if_pos hfits, List.take_of_length_le hfits]
    exact ⟨rfl, rfl⟩
  · rw [printOutput, if_neg hfits, if_neg hfits]
    exact ⟨rfl, rfl⟩

/-- The texts of documents, one after another. -/
def printed (format : Format) (found : List (String × Document)) : Bytes :=
  (found.map fun document => utf8 (render format document.1 document.2)).flatten

/-- Documents are printed as if they were one text. -/
theorem printAll_eq (format : Format) (limit : Option Nat) (tree : FileTree) (found : List (String × Document)) :
    printAll format limit tree found =
      ⟨tree, (printOutput limit (printed format found)).1, [],
        (printOutput limit (printed format found)).2.map fun _ => []⟩ := by
  induction found generalizing limit with
  | nil => cases limit <;> rfl
  | cons document found ih =>
      have hprinted : printed format (document :: found) =
          utf8 (render format document.1 document.2) ++ printed format found := rfl
      rw [printAll, hprinted]
      split
      · next taken failure hprint => rw [printOutput_append_of_error hprint]; rfl
      · next taken remaining hprint => rw [printOutput_append_of_ok hprint, ih]

/-! ### The two ways of output -/

/-- An output directory among the arguments changes the output and nothing else. -/
theorem effective_output (h : effective tree arguments = .ok options) (dir : Path) :
    effective tree { arguments with output := some dir } = .ok { options with output := some dir } := by
  obtain ⟨config, log, hload, rfl⟩ := exists_config h
  rw [effective, hload]
  rfl

theorem Kept.readFiles (h : Kept format dir found left) :
    (found.map fun document => outputPath format dir document.1).mapM left.readFile =
      .ok (found.map fun document => utf8 (render format document.1 document.2)) := by
  calc
    _ = found.mapM fun document => left.readFile (outputPath format dir document.1) := List.mapM_map
    _ = found.mapM fun document => pure (utf8 (render format document.1 document.2)) := mapM_congr_of_mem h.holds
    _ = _ := List.mapM_pure

/-- A run that writes files leaves the text of each document in a file of its own. -/
theorem kept_of_run {paths : List Path} (hfree : tree.LinkFree) (hoptions : effective tree arguments = .ok options)
    (hdir : options.output = some dir) (hfound : documents tree options = .ok found)
    (hnames : (found.map Prod.fst).Nodup) (hrun : (run tree arguments limit).result = .ok paths) :
    paths = (found.map fun document => outputPath options.format dir document.1) ∧
      Kept options.format dir found (run tree arguments limit).tree := by
  rw [run_of_documents hoptions hfound hdir] at hrun ⊢
  obtain ⟨left, hall, hwrote⟩ | ⟨left, before, next, after, e, -, hall, -⟩ := writeAll_cases found (hfree.clear tree.cwd)
  · rw [hall] at hrun ⊢
    have hclear : ∀ loc, left.Clear loc := fun loc => hwrote.clear (hfree.clear loc)
    exact ⟨(Except.ok.inj hrun).symm, (hwrote.kept_iff hfound).mpr ⟨hnames, agreeing_of_clear hclear hfound hnames⟩⟩
  · rw [hall] at hrun
    cases hrun

/-- A run without an output directory changes no file and prints what is in the files that the run with an output
directory returns, in their order, as many bytes as there is room for. It fails if and only if there is not enough. -/
theorem run_printed {paths : List Path} (hfree : tree.LinkFree) (hoptions : effective tree arguments = .ok options)
    (hprint : options.output = none) (hfound : documents tree options = .ok found)
    (hnames : (found.map Prod.fst).Nodup)
    (hrun : (run tree { arguments with output := some dir } limit).result = .ok paths) :
    ∃ contents, paths.mapM (run tree { arguments with output := some dir } limit).tree.readFile = .ok contents ∧
      (run tree arguments none).tree = tree ∧ (run tree arguments none).stdout = contents.flatten ∧
      (run tree arguments none).result = .ok [] ∧
      ∀ room, (run tree arguments (some room)).tree = tree ∧
        (run tree arguments (some room)).stdout = contents.flatten.take room ∧
        (run tree arguments (some room)).result =
          if contents.flatten.length ≤ room then .ok [] else .error (.output .outputFull) := by
  obtain ⟨rfl, hkept⟩ := kept_of_run hfree (effective_output hoptions dir) rfl hfound hnames hrun
  refine ⟨_, hkept.readFiles, ?_⟩
  simp only [run_of_printing hoptions hfound hprint, printAll_eq]
  exact ⟨trivial, rfl, rfl, fun room => ⟨trivial, printOutput_some room (printed options.format found)⟩⟩

/-- Two documents, not in the order of their names. -/
def pair : FileTree where
  entries :=
    [([utf8 "in"], .dir), ([utf8 "in", utf8 "b.json"], .file (utf8 smallText)),
     ([utf8 "in", utf8 "a.json"], .file (utf8 smallText))]
  cwd := []

def pairArguments : Arguments where
  file := some (utf8 "in")

def pairOptions : Options where
  input := some (utf8 "in")
  format := .markdown
  output := none
  name := defaultName

theorem pair_linkFree : pair.LinkFree := by decide

theorem pair_effective : effective pair pairArguments = .ok pairOptions := by cbv

theorem pair_documents : ∃ document, Routes.collect document = [] ∧
    documents pair pairOptions = .ok [("a", document), ("b", document)] := by
  have hinputs : inputs pair (utf8 "in") = .ok [utf8 "in/a.json", utf8 "in/b.json"] := by cbv
  have hnames : documentName (utf8 "in/a.json") = "a" ∧ documentName (utf8 "in/b.json") = "b" :=
    ⟨by cbv, by cbv⟩
  have hsmall : ∀ file ∈ [utf8 "in/a.json", utf8 "in/b.json"],
      ∃ loc, pair.locate file = .ok loc ∧ pair.get? loc = some (.file (utf8 smallText)) := by
    simp only [List.forall_mem_cons]
    exact ⟨⟨[utf8 "in", utf8 "a.json"], by cbv, rfl⟩, ⟨[utf8 "in", utf8 "b.json"], by cbv, rfl⟩, List.forall_mem_nil _⟩
  have hinput : pairOptions.input = some (utf8 "in") := rfl
  obtain ⟨document, hroutes, hfound⟩ := documents_of_smallText hinput hinputs (by simp) hsmall
  refine ⟨document, hroutes, ?_⟩
  simpa only [List.map_cons, List.map_nil, hnames] using hfound

/-- The tree after some files were written to a new directory. -/
def pairWith (files : List (String × Bytes)) : FileTree where
  entries := pair.entries ++ ([utf8 "out"], .dir) :: files.map fun file => ([utf8 "out", utf8 file.1], .file file.2)
  cwd := []

theorem pair_run : (run pair { pairArguments with output := some (utf8 "out") } none).result =
    .ok [utf8 "out/a-docs.md", utf8 "out/b-docs.md"] := by
  obtain ⟨document, -, hfound⟩ := pair_documents
  have hfirst : ∀ text, writeOutput pair (utf8 "out") (outputName .markdown "a") text =
      (pairWith [("a-docs.md", utf8 text)], .ok (utf8 "out/a-docs.md")) := by
    intro text
    cbv
  have hsecond : ∀ old text, writeOutput (pairWith [("a-docs.md", old)]) (utf8 "out") (outputName .markdown "b") text =
      (pairWith [("a-docs.md", old), ("b-docs.md", utf8 text)], .ok (utf8 "out/b-docs.md")) := by
    intro old text
    cbv
  rw [run_of_documents (effective_output pair_effective (utf8 "out")) hfound rfl]
  simp only [pairOptions]
  rw [writeAll_cons_ok ("a", document) (hfirst _), writeAll_cons_ok ("b", document) (hsecond _ _)]
  rfl

/-- The output ends inside the second document. -/
theorem run_printed_pair : pair.LinkFree ∧ effective pair pairArguments = .ok pairOptions ∧
    (run pair { pairArguments with output := some (utf8 "out") } none).result =
      .ok [utf8 "out/a-docs.md", utf8 "out/b-docs.md"] ∧
    (∃ found, documents pair pairOptions = .ok found ∧ (found.map Prod.fst).Nodup) ∧
    (run pair pairArguments (some 30)).tree = pair ∧
    (run pair pairArguments (some 30)).stdout = utf8 "# API Documentation (a)\n\n# API" ∧
    (run pair pairArguments (some 30)).result = .error (.output .outputFull) := by
  obtain ⟨document, hroutes, hfound⟩ := pair_documents
  have hnames : ([("a", document), ("b", document)].map Prod.fst).Nodup := by simp
  obtain ⟨contents, -, -, hall, -, hroom⟩ := run_printed pair_linkFree pair_effective rfl hfound hnames pair_run
  obtain ⟨htree, hstdout, hresult⟩ := hroom 30
  have hrender : ∀ name, render .markdown name document = "# API Documentation (" ++ name ++ ")\n\n" := by
    intro name
    rw [render, Routes.markdownFor, hroutes]
    exact String.append_empty
  have hprinted : contents.flatten = utf8 "# API Documentation (a)\n\n# API Documentation (b)\n\n" := by
    calc
      _ = printed .markdown [("a", document), ("b", document)] := by
        rw [← hall, run_of_printing pair_effective hfound rfl, printAll_eq]
        rfl
      _ = utf8 (render .markdown "a" document) ++ (utf8 (render .markdown "b" document) ++ []) := rfl
      _ = _ := by
        rw [hrender, hrender]
        cbv
  rw [hprinted] at hstdout hresult
  exact ⟨pair_linkFree, pair_effective, pair_run, ⟨_, hfound, hnames⟩, htree, hstdout.trans (by cbv),
    hresult.trans (if_neg (by decide))⟩

end RouteBook.Generator
