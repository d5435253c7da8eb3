import TypstLint.Proofs.Check.Imports
import TypstLint.Proofs.Rules.Places

set_option autoImplicit false

/-! # Reports about places

Every place in a report is real: if a diagnostic has a span, then the file that it names is one of the
package, is valid UTF-8, and has the characters of the span (`isLocated_of_check`). -/

namespace TypstLint

variable {files : FileSet} {options : CheckOptions} {result : CheckResult}

/-- The graph of a check has edges only for directives of the package's files. -/
theorem brings_of_importGraph {p : Package} {registry : Option Registry} {graph : ImportGraph}
    (h : importGraph p registry p.files.outlines = .ok graph) :
    ∀ e ∈ graph.edges, ∃ lit, p.files.Brings (graph.pathOf e.source) e.directive lit := by
  unfold importGraph at h
  split at h
  · intro e he
    obtain ⟨hexplored, -⟩ := ImportGraph.exists_explored h rfl
    obtain ⟨lit, -, hbrings, -⟩ := hexplored.exists_import he
    exact ⟨lit, hbrings⟩
  · obtain rfl := Except.ok.inj h
    intro e he
    cases he

/-- What a check knows about a package with a graph. -/
def CheckOptions.context (options : CheckOptions) (files : FileSet) (graph : ImportGraph) : Context where
  package := ⟨files, (Manifest.load files).manifest, options.spec⟩
  graph := graph
  outlines := files.outlines
  manifestProblems := (Manifest.load files).problems
  registry := options.registry
  publication := options.publication
  manifestText := (Manifest.load files).text

/-- What a check does, whatever it is checked with: it makes a report of what rules find that know
nothing but the package. -/
theorem exists_sound_of_check (h : check files options = .ok result)
    (hrules : options.rules = Rules.all) :
    ∃ ctx : Context, ctx.files = files ∧ ctx.IsSound
      ∧ ∃ rules, (∀ rule ∈ rules, rule ∈ Rules.all)
        ∧ result.report = .ofDiagnostics ctx.package.label (Rule.runAll rules ctx) := by
  have hproblems : ∀ rule ∈ [Rules.manifestProblems], rule ∈ Rules.all := by simp [Rules.all]
  have hall : ∀ rule ∈ options.rules, rule ∈ Rules.all := fun _ hrule => hrules ▸ hrule
  unfold check at h
  simp only at h
  split at h
  · -- problems of the manifest end the check: there is no graph, and nothing else is looked at
    obtain rfl := Except.ok.inj h
    exact ⟨options.context files {}, rfl, ⟨rfl, rfl, fun _ he => absurd he List.not_mem_nil⟩, _,
      hproblems, rfl⟩
  · obtain ⟨graph, hgraph, h⟩ := bind_eq_ok.mp h
    obtain rfl := Except.ok.inj h
    exact ⟨options.context files graph, rfl, ⟨rfl, rfl, brings_of_importGraph hgraph⟩, _, hall, rfl⟩

/-- Every place in a report is one of the text of a file of the package. -/
theorem isLocated_of_check (h : check files options = .ok result) (hrules : options.rules = Rules.all) :
    ∀ d ∈ result.report.diagnostics, d.IsLocated files := by
  obtain ⟨ctx, rfl, hctx, rules, hmem, hreport⟩ := exists_sound_of_check h hrules
  intro d hd
  rw [hreport] at hd
  have hfound := (Report.ofDiagnostics_spec _ _).mem d hd
  obtain ⟨rule, hrule, hd⟩ := List.mem_flatMap.mp hfound
  exact (Rules.locates_of_mem_all (hmem rule hrule)).isLocated hctx hd

/-- The sample has directives in three of its files, whose places are reported. -/
theorem isLocated_sample : ∃ result, check ImportGraph.sampleFiles sampleOptions = .ok result
    ∧ result.graph.edges.map (fun e => (result.graph.pathOf e.source, e.directive.span))
      = [("main.typ", ⟨0, 17⟩), ("main.typ", ⟨18, 36⟩), ("main.typ", ⟨37, 66⟩), ("main.typ", ⟨67, 96⟩),
          ("lib.typ", ⟨0, 21⟩), ("lib.typ", ⟨22, 45⟩), ("parts/box.typ", ⟨0, 20⟩), ("parts/box.typ", ⟨21, 40⟩),
          ("parts/box.typ", ⟨41, 59⟩)]
    ∧ ∀ d ∈ result.report.diagnostics, d.IsLocated ImportGraph.sampleFiles := by
  have hplaces : (check ImportGraph.sampleFiles sampleOptions).toOption.map (fun result =>
      result.graph.edges.map fun e => (result.graph.pathOf e.source, e.directive.span))
      = some [("main.typ", ⟨0, 17⟩), ("main.typ", ⟨18, 36⟩), ("main.typ", ⟨37, 66⟩), ("main.typ", ⟨67, 96⟩),
          ("lib.typ", ⟨0, 21⟩), ("lib.typ", ⟨22, 45⟩), ("parts/box.typ", ⟨0, 20⟩), ("parts/box.typ", ⟨21, 40⟩),
          ("parts/box.typ", ⟨41, 59⟩)] := by
    decide +kernel
  cases h : check ImportGraph.sampleFiles sampleOptions with
  | error fault =>
    rw [h] at hplaces
    cases hplaces
  | ok result =>
    rw [h] at hplaces
    exact ⟨result, rfl, Option.some.inj hplaces, isLocated_of_check h rfl⟩

end TypstLint
