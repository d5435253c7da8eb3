import TypstLint.Proofs.Check.Places
import TypstLint.Proofs.Check.Returns
import TypstLint.Proofs.Report.Order
import TypstLint.Proofs.Rules.Names

set_option autoImplicit false

/-! # Checks that problems of the manifest end

A check can end at problems of the manifest. It then reports exactly what a full check reports about
them, in the same order, and its verdict is the same (`check_shortCircuit`): a report sorts and merges
what is about the manifest without regard to the rest, and no other rule finds anything under the names
of these problems. -/

namespace TypstLint

variable {files : FileSet} {options : CheckOptions} {ctx : Context} {rule : Rule} {d : Diagnostic}

/-- Whether a diagnostic is about a manifest that cannot be read or is not valid. -/
def Diagnostic.isManifestProblem (d : Diagnostic) : Bool :=
  d.ruleId == "manifest/malformed" || d.ruleId == "manifest/invalid"

theorem Diagnostic.isManifestProblem_iff : d.isManifestProblem = true ↔ d.ruleId ∈ Rules.manifestProblems.names := by
  show _ ↔ d.ruleId ∈ ["manifest/invalid", "manifest/malformed"]
  simp [isManifestProblem, or_comm]

/-! ## Rules -/

namespace Rules

theorem isManifestProblem_of_mem_manifestProblems (hd : d ∈ manifestProblems.run ctx) :
    d.isManifestProblem = true ∧ d.severity = .error := by
  obtain ⟨problem, -, rfl⟩ := List.mem_map.mp hd
  cases problem <;> exact ⟨rfl, rfl⟩

theorem manifestProblems_run_ne_nil (h : ctx.manifestProblems ≠ []) : manifestProblems.run ctx ≠ [] :=
  List.map_eq_nil_iff.not.mpr h

/-- A rule with other names finds nothing that is about a manifest that is not valid. -/
theorem not_isManifestProblem_of_mem_run (hrule : rule ∈ all)
    (hnames : ∀ name ∈ rule.names, name ∉ manifestProblems.names) (hd : d ∈ rule.run ctx) :
    ¬ d.isManifestProblem = true := by
  rw [Diagnostic.isManifestProblem_iff]
  rcases (isNamed_of_mem_all hrule).ruleId_mem hd with hmem | ⟨fault, rfl⟩
  · exact hnames _ hmem
  · show Rule.failureId ∉ manifestProblems.names
    decide

/-- All that the rules find about a manifest that is not valid is found by one of them. -/
theorem filter_isManifestProblem_runAll (ctx : Context) :
    (Rule.runAll all ctx).filter Diagnostic.isManifestProblem = manifestProblems.run ctx := by
  have hothers : ∀ rule ∈ all.tail, ∀ name ∈ rule.names, name ∉ manifestProblems.names := by
    decide
  have hnone : (Rule.runAll all.tail ctx).filter Diagnostic.isManifestProblem = [] := by
    refine List.filter_eq_nil_iff.mpr fun d hd => ?_
    obtain ⟨rule, hrule, hd⟩ := List.mem_flatMap.mp hd
    exact not_isManifestProblem_of_mem_run (List.mem_of_mem_tail hrule) (hothers rule hrule) hd
  have hfirst : (manifestProblems.run ctx).filter Diagnostic.isManifestProblem
      = manifestProblems.run ctx :=
    List.filter_eq_self.mpr fun d hd => (isManifestProblem_of_mem_manifestProblems hd).1
  have hsplit : Rule.runAll all ctx = manifestProblems.run ctx ++ Rule.runAll all.tail ctx := rfl
  rw [hsplit, List.filter_append, hnone, hfirst, List.append_nil]

end Rules

/-! ## Checks -/

/-- The result of a check with a graph, after some rules were applied. -/
def CheckOptions.resultOf (options : CheckOptions) (files : FileSet) (graph : ImportGraph)
    (rules : List Rule) : CheckResult :=
  ⟨options.packageOf files, graph,
    .ofDiagnostics (options.packageOf files).label (Rule.runAll rules (options.context files graph))⟩

theorem check_of_stopsAt (files : FileSet) (options : CheckOptions) (h : options.StopsAt files) :
    check files options = .ok (options.resultOf files {} [Rules.manifestProblems]) := by
  have hstops : (options.shortCircuit && !(Manifest.load files).problems.isEmpty) = true := by
    rw [Bool.and_eq_true, Bool.not_eq_true', List.isEmpty_eq_false_iff]
    exact h
  unfold check
  simp only [hstops, if_true]
  rfl

theorem check_of_not_stopsAt (files : FileSet) (options : CheckOptions) (h : ¬ options.StopsAt files) :
    check files options
      = (importGraph (options.packageOf files) options.registry files.outlines).map
          fun graph => options.resultOf files graph options.rules := by
  have hgoes : ¬ (options.shortCircuit && !(Manifest.load files).problems.isEmpty) = true := by
    rw [Bool.and_eq_true, Bool.not_eq_true', List.isEmpty_eq_false_iff]
    exact h
  unfold check
  simp only [hgoes, if_false, Bool.false_eq_true]
  rfl

/-- If problems of the manifest end a check, it reports what the full check reports about them, and both
fail. -/
theorem report_manifestProblems (package : String) (ctx : Context) (hproblems : ctx.manifestProblems ≠ []) :
    (Report.ofDiagnostics package (Rule.runAll [Rules.manifestProblems] ctx)).diagnostics
        = (Report.ofDiagnostics package (Rule.runAll Rules.all ctx)).diagnostics.filter
            Diagnostic.isManifestProblem
      ∧ (Report.ofDiagnostics package (Rule.runAll [Rules.manifestProblems] ctx)).verdict = "fail"
      ∧ (Report.ofDiagnostics package (Rule.runAll Rules.all ctx)).verdict = "fail" := by
  have hsame : ∀ a b : Diagnostic, a.sameIssue b = true → a.isManifestProblem = b.isManifestProblem := by
    intro a b hab
    rw [Diagnostic.isManifestProblem, Diagnostic.isManifestProblem, (Diagnostic.sameIssue_iff.mp hab).1]
  have hrun : Rule.runAll [Rules.manifestProblems] ctx = Rules.manifestProblems.run ctx :=
    List.append_nil _
  have hfilter : (Report.ofDiagnostics package (Rule.runAll [Rules.manifestProblems] ctx)).diagnostics
      = (Report.ofDiagnostics package (Rule.runAll Rules.all ctx)).diagnostics.filter
          Diagnostic.isManifestProblem := by
    rw [Report.filter_ofDiagnostics hsame, Rules.filter_isManifestProblem_runAll, hrun]
  obtain ⟨d, hd⟩ := List.exists_mem_of_ne_nil _ (Rules.manifestProblems_run_ne_nil hproblems)
  have herror := (Rules.isManifestProblem_of_mem_manifestProblems hd).2
  obtain ⟨e, he, herror⟩ := (Report.exists_error_ofDiagnostics_iff package _).mpr ⟨d, hrun ▸ hd, herror⟩
  refine ⟨hfilter, Report.verdict_eq_fail_iff.mpr ⟨e, he, herror⟩,
    Report.verdict_eq_fail_iff.mpr ⟨e, ?_, herror⟩⟩
  rw [hfilter] at he
  exact (List.mem_filter.mp he).1

/-- Whenever a full check gives a report, so does the check that problems of the manifest end, with the
same verdict. If there are such problems, they are reported as in the full report and in its order, and
nothing else is; otherwise the reports are the same. -/
theorem check_shortCircuit (files : FileSet) (spec : Option Spec) (registry : Option Registry)
    (publication : Bool) {full : CheckResult}
    (h : check files { spec, registry, publication } = .ok full) :
    ∃ fast, check files { spec, registry, publication, shortCircuit := true } = .ok fast
      ∧ fast.report.verdict = full.report.verdict
      ∧ ((Manifest.load files).problems ≠ [] →
        fast.report.diagnostics = full.report.diagnostics.filter Diagnostic.isManifestProblem)
      ∧ ((Manifest.load files).problems = [] → fast.report = full.report) := by
  rw [check_of_not_stopsAt files _ fun hstops => Bool.false_ne_true hstops.1] at h
  obtain ⟨graph, hgraph, rfl⟩ := map_eq_ok.mp h
  by_cases hproblems : (Manifest.load files).problems = []
  · have hfast := check_of_not_stopsAt files { spec, registry, publication, shortCircuit := true } fun hstops => hstops.2 hproblems
    exact ⟨_, hfast.trans (map_eq_ok.mpr ⟨graph, hgraph, rfl⟩), rfl, absurd hproblems, fun _ => rfl⟩
  · have hfast := check_of_stopsAt files { spec, registry, publication, shortCircuit := true } ⟨rfl, hproblems⟩
    -- the rule about problems of the manifest does not look at the graph
    obtain ⟨hfilter, hfast', hfull⟩ := report_manifestProblems
      (CheckOptions.packageOf { spec, registry, publication } files).label
      (CheckOptions.context { spec, registry, publication } files graph) hproblems
    exact ⟨_, hfast, hfast'.trans hfull.symm, fun _ => hfilter, fun hnone => absurd hnone hproblems⟩

/-- A package without the entrypoint that its manifest names, and with an import that leads nowhere. -/
def entrypointMissing : FileSet where
  files :=
    [⟨"main.typ", "#import \"util.typ\"\n".toUTF8⟩,
     ⟨"typst.toml", "[package]\nname = \"demo\"\nversion = \"1.0.0\"\nentrypoint = \"lib.typ\"\n\n[template]\npath = \".\"\nentrypoint = \"main.typ\"\n".toUTF8⟩]
  escapedLinks := []
  sorted := by decide

/-- The full check finds more than the problem of the manifest, and the other one finds only this. -/
theorem check_shortCircuit_entrypointMissing : (Manifest.load entrypointMissing).problems ≠ []
    ∧ ∃ full fast, check entrypointMissing { publication := true } = .ok full
      ∧ check entrypointMissing { publication := true, shortCircuit := true } = .ok fast
      ∧ full.graph.edges.length = 1
      ∧ fast.report.verdict = full.report.verdict
      ∧ fast.report.diagnostics = full.report.diagnostics.filter Diagnostic.isManifestProblem := by
  have hproblems : (Manifest.load entrypointMissing).problems ≠ [] := by decide +kernel
  have hedges : (check entrypointMissing { publication := true }).toOption.map
      (·.graph.edges.length) = some 1 := by
    decide +kernel
  refine ⟨hproblems, ?_⟩
  cases h : check entrypointMissing { publication := true } with
  | error fault =>
    rw [h] at hedges
    cases hedges
  | ok full =>
    rw [h] at hedges
    obtain ⟨fast, hfast, hverdict, hdiagnostics, -⟩ := check_shortCircuit entrypointMissing none none true h
    exact ⟨full, fast, rfl, hfast, Option.some.inj hedges, hverdict, hdiagnostics hproblems⟩

end TypstLint
