/- The families share one graph, one space of ids and one assignment of namespaces, and yet what
one of them adds to the graph does not depend on what is written in the files of the others. -/
import SourceAtlas.Proofs.Passes

namespace SourceAtlas

theorem Frontends.links_congr {frontends others : Frontends} {family : Family}
    (same : frontends family = others family) (pass : Pass) :
    frontends.links family pass = others.links family pass := by
  simp only [links, steps, tablesAfter, same]

/-- A front-end knows the files of its family and their namespaces, and nothing else. -/
theorem frontendsOf_congr {family : Family} {files others : List SourceFile}
    (inside : filesOf family files = filesOf family others)
    (named : ∀ file ∈ filesOf family files, moduleNames files file = moduleNames others file) :
    frontendsOf files family = frontendsOf others family := by
  have units {α : Type} (outline : SourceFile → α) :
      Frontends.units (moduleNames files) outline family files =
        Frontends.units (moduleNames others) outline family others := by
    unfold Frontends.units
    have listed : files.filter (fun file => file.family == family) =
      others.filter fun file => file.family == family := inside
    rw [← listed]
    refine List.map_congr_left fun file member => ?_
    rw [named file member]
  cases family with
  | python => exact congrArg Python.scripts (units Python.Outline.ofFile)
  | javaScript => exact congrArg JavaScript.scripts (units JavaScript.Outline.ofFile)
  | swift => exact congrArg Swift.scripts (units Swift.Outline.ofFile)

theorem links_eq_nil {family : Family} {files : List SourceFile}
    (absent : filesOf family files = []) (pass : Pass) :
    (frontendsOf files).links family pass = [] := by
  have units {α : Type} (outline : SourceFile → α) :
      Frontends.units (moduleNames files) outline family files = [] :=
    List.map_eq_nil_iff.mpr absent
  have silent : frontendsOf files family pass = [] := by
    cases family with
    | python =>
        have scripts : frontendsOf files .python = Python.scripts [] :=
          congrArg Python.scripts (units _)
        rw [scripts]
        cases pass <;> rfl
    | javaScript =>
        have scripts : frontendsOf files .javaScript = JavaScript.scripts [] :=
          congrArg JavaScript.scripts (units _)
        rw [scripts]
        cases pass <;> rfl
    | swift =>
        have scripts : frontendsOf files .swift = Swift.scripts [] :=
          congrArg Swift.scripts (units _)
        rw [scripts]
        cases pass <;> rfl
  simp only [Frontends.links, Frontends.steps, silent, Script.stepsFrom, Step.drawn]

/-- A file as it is found in a repository: its path is in normal form and tells its language. -/
def SourceFile.Located (file : SourceFile) : Prop :=
  Path.normalize file.path = file.path ∧ Language.ofPath? file.path = some file.language

theorem SourceFile.Located.isFirstFamily {file : SourceFile} (located : file.Located) :
    Namespace.isFirstFamily file.path = (file.family == .python) := by
  simp [Namespace.isFirstFamily, Namespace.Claim.ofPath, located.1, located.2, SourceFile.family]

/-- Files of the first family keep their namespaces when all others are taken away. -/
theorem moduleNames_filesOf {files : List SourceFile} (located : ∀ file ∈ files, file.Located)
    {file : SourceFile} (member : file ∈ filesOf .python files) :
    moduleNames files file = moduleNames (filesOf .python files) file := by
  have paths : (filesOf .python files).map SourceFile.path =
      (files.map SourceFile.path).filter Namespace.isFirstFamily := by
    rw [filesOf, List.filter_map]
    refine congrArg _ (List.filter_congr fun other listed => ?_)
    exact (located other listed).isFirstFamily.symm
  obtain ⟨listed, python⟩ := List.mem_filter.mp member
  have first : Namespace.isFirstFamily file.path = true := by
    rw [(located file listed).isFirstFamily]
    exact python
  rw [moduleNames_of_mem listed, moduleNames_of_mem member, paths, Namespace.nameAmong_filter first]

/-- What a family adds in a pass of a build is settled by the paths of all files and by its own
files. For the first family its own files suffice, so the edges of a build are, pass by pass, those
of a build of that family alone, followed by those of the others. -/
theorem contribution_of_own_files (files : List SourceFile) :
    (∀ (family : Family) (others : List SourceFile),
      files.map SourceFile.path = others.map SourceFile.path →
        filesOf family files = filesOf family others →
        ∀ pass, contribution files pass family = contribution others pass family) ∧
    ((∀ file ∈ files, file.Located) →
      (∀ pass,
        contribution files pass .python = contribution (filesOf .python files) pass .python) ∧
      ∃ result alone, buildGraph files = .ok result ∧
        buildGraph (filesOf .python files) = .ok alone ∧
        alone.edges = Pass.all.flatMap
          (fun pass => contribution (filesOf .python files) pass .python) ∧
        result.edges = Pass.all.flatMap fun pass =>
          contribution (filesOf .python files) pass .python ++
          contribution files pass .javaScript ++ contribution files pass .swift) := by
  constructor
  · intro family others paths inside pass
    rw [contribution_eq, contribution_eq]
    refine Frontends.links_congr (frontendsOf_congr inside fun file _ => ?_) pass
    simp only [moduleNames, paths]
  · intro located
    have again : filesOf .python (filesOf .python files) = filesOf .python files := by
      simp [filesOf]
    have same (pass : Pass) : contribution files pass .python =
        contribution (filesOf .python files) pass .python := by
      rw [contribution_eq, contribution_eq]
      exact Frontends.links_congr
        (frontendsOf_congr again.symm fun file member => moduleNames_filesOf located member) pass
    have absent {family : Family} (other : family ≠ .python) :
        filesOf family (filesOf .python files) = [] := by
      refine List.filter_eq_nil_iff.mpr fun file member => ?_
      rw [beq_iff_eq.mp (List.mem_filter.mp member).2]
      simpa using Ne.symm other
    obtain ⟨result, built, edges⟩ := buildGraph_edges files
    obtain ⟨alone, builtAlone, edgesAlone⟩ := buildGraph_edges (filesOf .python files)
    refine ⟨same, result, alone, built, builtAlone, ?_, ?_⟩
    · rw [edgesAlone]
      simp only [contribution_eq, links_eq_nil (absent (by decide : Family.javaScript ≠ .python)),
        links_eq_nil (absent (by decide : Family.swift ≠ .python)), List.append_nil]
    · rw [edges]
      simp only [← same, contribution_eq]

def importingModule : SourceFile where
  path := "app.py"
  language := .python
  text := "import os"
  tree := some (.plain "module" none 0 9
    [.plain "import_statement" none 0 9 [.plain "dotted_name" (some "name") 7 9 []]])

/-- A script that would have the same module name. -/
def importingScript (text : String) : SourceFile where
  path := "app.js"
  language := .javaScript
  text := text
  tree := some (.plain "program" none 0 12
    [.plain "import_statement" none 0 12 [.plain "string" (some "source") 7 12 []]])

theorem contribution_of_own_files_importing :
    (∀ pass, contribution [importingScript "import './a'", importingModule] pass .python =
      contribution [importingScript "import './b'", importingModule] pass .python) ∧
    contribution [importingScript "import './a'", importingModule] .imports .python =
      [⟨"file:app.py", "external:os", .imports, .low⟩] := by
  have general := contribution_of_own_files [importingScript "import './a'", importingModule]
  have located : ∀ file ∈ [importingScript "import './a'", importingModule], file.Located := by
    intro file member
    rcases List.mem_cons.mp member with rfl | later
    · exact ⟨by decide, by decide⟩
    · rw [List.mem_singleton.mp later]
      exact ⟨by decide, by decide⟩
  refine ⟨general.1 .python _ rfl rfl, ((general.2 located).1 .imports).trans ?_⟩
  have alone : filesOf .python [importingScript "import './a'", importingModule] =
      [importingModule] := rfl
  rw [alone]
  decide +kernel

end SourceAtlas
