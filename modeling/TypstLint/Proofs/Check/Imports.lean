import TypstLint.Check
import TypstLint.Proofs.ImportGraph.Build
import TypstLint.Proofs.ImportGraph.Fate
import TypstLint.Proofs.Report.Distinct
import TypstLint.Proofs.Rules.Names

set_option autoImplicit false

/-! # Reports about imports

A report tells the fate of every import of every file that is reached: one error at its target if it
leads nowhere or to a package that is not found, and none if it is fine
(`accountsForImports_of_check`). The way goes from the edges to the errors about them, and from these to
the report, where no two of them are taken for one because their targets lie at different places. -/

namespace TypstLint

open Markup (Directive Literal)
open Text (Span)

/-- The diagnostics with a name at a place of a file. -/
def Report.issuesAt (r : Report) (ruleId path : String) (span : Span) : List Diagnostic :=
  r.diagnostics.filter fun d => d.ruleId == ruleId && d.file == some path && d.span == some span

/-- A report tells what becomes of the imports of a package, and nothing else under the names of the
two rules about them. -/
structure AccountsForImports (p : Package) (registry : Option Registry) (r : Report) : Prop where
  every_import : ∀ path d lit, p.Reached path → p.files.Brings path d lit →
    ∃ fate : Fate, fate.Holds p registry path lit.text
      ∧ (∀ other : Fate, other.Holds p registry path lit.text → other = fate)
      ∧ ∀ (reported : Fate) ruleId, reported.ruleId? = some ruleId →
          (r.issuesAt ruleId path lit.span).map (·.severity) = if reported = fate then [.error] else []
  no_other : ∀ diagnostic ∈ r.diagnostics, ∀ fate : Fate, fate.ruleId? = some diagnostic.ruleId →
    ∃ path d lit, p.Reached path ∧ p.files.Brings path d lit ∧ fate.Holds p registry path lit.text
      ∧ diagnostic.file = some path ∧ diagnostic.span = some lit.span

/-! ## Errors about edges -/

namespace Rules

variable {ctx : Context} {e : Edge} {d : Diagnostic} {fate : Fate} {ruleId : String}

/-- The error about an edge with a fate. -/
def importDiagnostic? (ctx : Context) (e : Edge) : Fate → Option Diagnostic
  | .fine => none
  | .unresolved => unresolvedDiagnostic? ctx e
  | .notFound => notFoundDiagnostic? ctx e

theorem isSome_importDiagnostic? (ctx : Context) (e : Edge) (hrule : fate.ruleId? = some ruleId) :
    (importDiagnostic? ctx e fate).isSome = true ↔ e.resolution.fate = fate := by
  cases fate with
  | fine => cases hrule
  | unresolved =>
    show (e.resolution.problem?.map _).isSome = true ↔ _
    rw [Option.isSome_map]
    cases hresolution : e.resolution with
    | package spec status => cases status <;> simp [Resolution.problem?, Resolution.fate]
    | _ => simp [Resolution.problem?, Resolution.fate]
  | notFound =>
    show (notFoundDiagnostic? ctx e).isSome = true ↔ _
    unfold notFoundDiagnostic?
    cases hresolution : e.resolution with
    | package spec status => cases status <;> simp [Resolution.fate]
    | _ => simp [Resolution.fate]

/-- The error about an edge is at its target. -/
theorem importDiagnostic?_spec (h : importDiagnostic? ctx e fate = some d) :
    fate.ruleId? = some d.ruleId ∧ d.severity = .error ∧ d.file = some (ctx.graph.pathOf e.source)
      ∧ d.span = some ((e.directive.target.map (·.span)).getD e.directive.span) := by
  cases fate with
  | fine => cases h
  | unresolved =>
    obtain ⟨problem, -, rfl⟩ := Option.map_eq_some_iff.mp h
    exact ⟨rfl, rfl, rfl, rfl⟩
  | notFound =>
    replace h : notFoundDiagnostic? ctx e = some d := h
    unfold notFoundDiagnostic? at h
    split at h
    · obtain rfl := Option.some.inj h
      exact ⟨rfl, rfl, rfl, rfl⟩
    · cases h

/-- All rules together find the errors about the edges. -/
theorem mem_runAll_iff_importDiagnostic? (hrule : fate.ruleId? = some d.ruleId) :
    d ∈ Rule.runAll all ctx ↔ ∃ e ∈ ctx.graph.edges, importDiagnostic? ctx e fate = some d := by
  cases fate with
  | fine => cases hrule
  | unresolved =>
    have hmem : unresolvedImports ∈ all := by simp [all]
    have hname : unresolvedImports.id ∉ Rule.sharedNames := by decide
    rw [mem_runAll_iff hmem hname (Option.some.inj hrule).symm]
    exact List.mem_filterMap
  | notFound =>
    have hmem : packagesNotFound ∈ all := by simp [all]
    have hname : packagesNotFound.id ∉ Rule.sharedNames := by decide
    rw [mem_runAll_iff hmem hname (Option.some.inj hrule).symm]
    exact List.mem_filterMap

end Rules

/-! ## One error for one edge -/

namespace Report

variable {r : Report} {ds : List Diagnostic} {ruleId path : String} {span : Span}

theorem mem_issuesAt {d : Diagnostic} : d ∈ r.issuesAt ruleId path span
    ↔ d ∈ r.diagnostics ∧ d.ruleId = ruleId ∧ d.file = some path ∧ d.span = some span := by
  simp only [issuesAt, List.mem_filter, Bool.and_eq_true, beq_iff_eq, and_assoc]

/-- If nothing was found at a place, then nothing is reported there. -/
theorem issuesAt_eq_nil (h : IsDistinct ds r.diagnostics)
    (hnone : ∀ d ∈ ds, d.ruleId = ruleId → d.file = some path → ¬ d.span = some span) :
    r.issuesAt ruleId path span = [] := by
  refine List.eq_nil_iff_forall_not_mem.mpr fun d hd => ?_
  obtain ⟨hmem, hid, hfile, hspan⟩ := mem_issuesAt.mp hd
  exact hnone d (h.mem d hmem) hid hfile hspan

/-- If all that was found at a place is one diagnostic, then it is reported there, once. -/
theorem issuesAt_eq_singleton (h : IsDistinct ds r.diagnostics) {d : Diagnostic} (hd : d ∈ ds)
    (hid : d.ruleId = ruleId) (hfile : d.file = some path) (hspan : d.span = some span)
    (hall : ∀ d' ∈ ds, d'.ruleId = ruleId → d'.file = some path → d'.span = some span → d' = d) :
    r.issuesAt ruleId path span = [d] := by
  have hnodup : (r.issuesAt ruleId path span).Nodup := by
    refine (h.pairwise.imp ?_).filter _
    rintro a b hdifferent rfl
    exact hdifferent a.sameIssue_refl
  have heq : ∀ d' ∈ r.issuesAt ruleId path span, d' = d := by
    intro d' hd'
    obtain ⟨hmem, hid', hfile', hspan'⟩ := mem_issuesAt.mp hd'
    exact hall d' (h.mem d' hmem) hid' hfile' hspan'
  -- the diagnostic that covers `d` is at the same place, so it is `d`
  obtain ⟨e, he, hsame, -⟩ := h.covered d hd
  obtain ⟨hid', hfile', hspan', -⟩ := Diagnostic.sameIssue_iff.mp hsame
  have hmem : e ∈ r.issuesAt ruleId path span :=
    mem_issuesAt.mpr ⟨he, hid'.trans hid, hfile'.trans hfile, hspan'.trans hspan⟩
  obtain rfl := heq e hmem
  exact List.perm_singleton.mp ((List.perm_ext_iff_of_nodup hnodup (List.nodup_singleton e)).mpr
    fun d' => ⟨fun hd' => List.mem_singleton.mpr (heq d' hd'), fun hd' =>
      List.mem_singleton.mp hd' ▸ hmem⟩)

end Report

/-! ## The check -/

variable {files : FileSet} {options : CheckOptions} {result : CheckResult}

/-- What a check with all rules does with a manifest that can be read. -/
theorem exists_context_of_check (h : check files options = .ok result)
    (hmanifest : (Manifest.load files).manifest.isSome = true) (hrules : options.rules = Rules.all)
    (hstop : options.shortCircuit = false) :
    ∃ ctx : Context, ctx.package = ⟨files, (Manifest.load files).manifest, options.spec⟩
      ∧ ImportGraph.build ⟨ctx.package, options.registry, files.outlines⟩ = .ok ctx.graph
      ∧ result.report = .ofDiagnostics ctx.package.label (Rule.runAll Rules.all ctx) := by
  unfold check at h
  simp only [hstop, Bool.false_and, Bool.false_eq_true, if_false, hrules] at h
  obtain ⟨graph, hgraph, h⟩ := bind_eq_ok.mp h
  obtain rfl := Except.ok.inj h
  rw [importGraph, if_pos hmanifest] at hgraph
  refine ⟨⟨⟨files, (Manifest.load files).manifest, options.spec⟩, graph, files.outlines,
    (Manifest.load files).problems, options.registry, options.publication,
    (Manifest.load files).text⟩, rfl, hgraph, rfl⟩

namespace ImportGraph

variable {p : Package} {registry : Option Registry} {g : ImportGraph}

/-- Every import of a file that is reached is an edge. -/
theorem Exploring.exists_edge {input : Input}
    (h : Exploring input g.nodes.length g.nodes g.edges) {path : String} {d : Directive}
    {lit : Literal} (hreached : input.package.Reached path)
    (hbrings : input.package.files.Brings path d lit) :
    ∃ e ∈ g.edges, e.directive = d ∧ g.pathOf e.source = path
      ∧ e.resolution.fate.Holds input.package input.registry path lit.text := by
  obtain ⟨i, hi⟩ := List.mem_iff_getElem?.mp (h.mem_of_reached hreached)
  obtain ⟨hlt, -⟩ := List.getElem?_eq_some_iff.mp hi
  obtain ⟨hd, hlit⟩ := (h.directives i hlt path hi).brings_iff.mp hbrings
  obtain ⟨e, he, rfl⟩ := List.mem_map.mp hd
  obtain ⟨hedge, hsource⟩ := List.mem_filter.mp he
  rw [← beq_iff_eq.mp hsource] at hi
  obtain ⟨path', hpath', lit', hlit', hsettles⟩ := h.settled e hedge
  obtain rfl := Option.some.inj (hpath'.symm.trans hi)
  obtain rfl := Option.some.inj (hlit'.symm.trans hlit)
  exact ⟨e, hedge, rfl, pathOf_of_getElem? hi, hsettles.holds⟩

/-- Every edge is an import of a file that is reached. -/
theorem Exploring.exists_import {input : Input}
    (h : Exploring input g.nodes.length g.nodes g.edges) {e : Edge} (he : e ∈ g.edges) :
    ∃ lit, input.package.Reached (g.pathOf e.source)
      ∧ input.package.files.Brings (g.pathOf e.source) e.directive lit
      ∧ e.directive.target = some lit
      ∧ e.resolution.fate.Holds input.package input.registry (g.pathOf e.source) lit.text := by
  obtain ⟨path, hpath, lit, hlit, hsettles⟩ := h.settled e he
  rw [pathOf_of_getElem? hpath]
  have hliteral := h.directives e.source (h.source_lt e he) path hpath
  have hd : e.directive ∈ (g.edges.filter (·.source == e.source)).map (·.directive) :=
    List.mem_map.mpr ⟨e, by simp [he], rfl⟩
  exact ⟨lit, h.reached path (List.mem_of_getElem? hpath), hliteral.brings_iff.mpr ⟨hd, hlit⟩, hlit,
    hsettles.holds⟩

/-! ## The report -/

section Report

variable {input : Input} {ctx : Context} {r : Report} {e e' : Edge} {lit : Literal} {fate : Fate}

/-- An error at the target of an edge is about this edge. -/
theorem edge_eq_of_importDiagnostic? {d : Diagnostic}
    (h : Exploring input ctx.graph.nodes.length ctx.graph.nodes ctx.graph.edges)
    (he : e ∈ ctx.graph.edges) (he' : e' ∈ ctx.graph.edges) (hlit : e.directive.target = some lit)
    (hd : Rules.importDiagnostic? ctx e' fate = some d)
    (hfile : d.file = some (ctx.graph.pathOf e.source)) (hspan : d.span = some lit.span) : e' = e := by
  obtain ⟨lit', -, -, hlit', -⟩ := h.exists_import he'
  obtain ⟨-, -, hfile', hspan'⟩ := Rules.importDiagnostic?_spec hd
  rw [hlit', Option.map_some, Option.getD_some] at hspan'
  have hsame : lit'.span = lit.span := Option.some.inj (hspan'.symm.trans hspan)
  have hpath : ctx.graph.pathOf e'.source = ctx.graph.pathOf e.source :=
    Option.some.inj (hfile'.symm.trans hfile)
  have hwell := h.wellFormed
  have hsource := pathOf_inj hwell (hwell.source_lt e' he') (hwell.source_lt e he) hpath
  refine h.edge_eq he' he hsource ?_
  rw [hlit, hlit', Option.map_some, Option.map_some, hsame]

/-- At the target of an edge there is one error under the rule that reports its fate, and none under the
other rule. -/
theorem severities_issuesAt {ruleId : String}
    (h : Exploring input ctx.graph.nodes.length ctx.graph.nodes ctx.graph.edges)
    (hdistinct : Report.IsDistinct (Rule.runAll Rules.all ctx) r.diagnostics)
    (he : e ∈ ctx.graph.edges) (hlit : e.directive.target = some lit)
    (hrule : fate.ruleId? = some ruleId) :
    (r.issuesAt ruleId (ctx.graph.pathOf e.source) lit.span).map (·.severity)
      = if fate = e.resolution.fate then [.error] else [] := by
  have hsome := Rules.isSome_importDiagnostic? ctx e hrule
  -- whatever all rules together find at this place under this name is the error about this edge
  have hfound : ∀ d' ∈ Rule.runAll Rules.all ctx, d'.ruleId = ruleId →
      d'.file = some (ctx.graph.pathOf e.source) → d'.span = some lit.span →
      Rules.importDiagnostic? ctx e fate = some d' := by
    intro d' hd' hid hfile hspan
    rw [← hid] at hrule
    obtain ⟨e', he', hdiagnostic⟩ := (Rules.mem_runAll_iff_importDiagnostic? hrule).mp hd'
    obtain rfl := edge_eq_of_importDiagnostic? h he he' hlit hdiagnostic hfile hspan
    exact hdiagnostic
  split
  · next heq =>
    obtain ⟨d, hd⟩ := Option.isSome_iff_exists.mp (hsome.mpr heq.symm)
    obtain ⟨hid, hseverity, hfile, hspan⟩ := Rules.importDiagnostic?_spec hd
    rw [hlit, Option.map_some, Option.getD_some] at hspan
    have hmem := (Rules.mem_runAll_iff_importDiagnostic? hid).mpr ⟨e, he, hd⟩
    have hid' : d.ruleId = ruleId := Option.some.inj (hid.symm.trans hrule)
    rw [Report.issuesAt_eq_singleton hdistinct hmem hid' hfile hspan ?_, List.map_singleton, hseverity]
    intro d' hd' hrule' hfile' hspan'
    exact Option.some.inj ((hfound d' hd' hrule' hfile' hspan').symm.trans hd)
  · next hne =>
    rw [Report.issuesAt_eq_nil hdistinct ?_, List.map_nil]
    intro d' hd' hrule' hfile' hspan'
    exact hne (hsome.mp (by rw [hfound d' hd' hrule' hfile' hspan']; rfl)).symm

end Report

end ImportGraph

/-- A report accounts for the imports of a package: every import of a file that is reached has one fate,
a broken one gives one error at its target, and there are no other errors about imports. -/
theorem accountsForImports_of_check (h : check files options = .ok result)
    (hmanifest : (Manifest.load files).manifest.isSome = true) (hrules : options.rules = Rules.all)
    (hstop : options.shortCircuit = false) :
    AccountsForImports ⟨files, (Manifest.load files).manifest, options.spec⟩ options.registry
      result.report := by
  obtain ⟨ctx, hpackage, hbuild, hreport⟩ := exists_context_of_check h hmanifest hrules hstop
  have houtlines : files.outlines = ctx.package.files.outlines := by rw [hpackage]
  obtain ⟨hexplored, -⟩ := ImportGraph.exists_explored hbuild houtlines
  have hdistinct : Report.IsDistinct (Rule.runAll Rules.all ctx) result.report.diagnostics := by
    rw [hreport]
    exact Report.ofDiagnostics_spec _ _
  rw [← hpackage]
  refine ⟨fun path d lit hreached hbrings => ?_, fun diagnostic hmem fate hfate => ?_⟩
  · obtain ⟨e, he, rfl, rfl, hholds⟩ := hexplored.exists_edge hreached hbrings
    obtain ⟨_, _, -, -, -, hlit⟩ := hbrings
    refine ⟨e.resolution.fate, hholds, fun other hother => hother.unique hholds, ?_⟩
    intro reported ruleId hrule
    exact ImportGraph.severities_issuesAt hexplored hdistinct he hlit hrule
  · have hfound := hdistinct.mem diagnostic hmem
    obtain ⟨e, he, hdiagnostic⟩ := (Rules.mem_runAll_iff_importDiagnostic? hfate).mp hfound
    obtain ⟨-, -, hfile, hspan⟩ := Rules.importDiagnostic?_spec hdiagnostic
    obtain ⟨lit, hreached, hbrings, hlit, hholds⟩ := hexplored.exists_import he
    have heq : e.resolution.fate = fate := by
      refine (Rules.isSome_importDiagnostic? ctx e hfate).mp ?_
      rw [hdiagnostic]
      rfl
    rw [heq] at hholds
    rw [hlit, Option.map_some, Option.getD_some] at hspan
    exact ⟨_, _, lit, hreached, hbrings, hholds, hfile, hspan⟩

/-- A registry with a single package. -/
def sampleRegistry : Registry where
  tree :=
    { entries :=
        [(["packages"], .dir), (["packages", "preview"], .dir), (["packages", "preview", "cetz"], .dir),
         (["packages", "preview", "cetz", "0.2.0"], .dir),
         (["packages", "preview", "cetz", "0.2.0", "typst.toml"], .file .empty)] }
  root := []

/-- The sample files are checked with a registry that has one of the packages that they import. -/
def sampleOptions : CheckOptions := { registry := some sampleRegistry }

/-- The imports of the sample have all three fates, also those of packages, and the report accounts for them. -/
theorem accountsForImports_sample : ∃ result, check ImportGraph.sampleFiles sampleOptions = .ok result
    ∧ result.graph.edges.map (·.resolution.fate)
      = [.fine, .unresolved, .notFound, .fine, .fine, .fine, .fine, .fine, .fine]
    ∧ sampleRegistry.hasPackage ⟨"preview", "cetz", ⟨0, 2, 0⟩⟩ = .ok true
    ∧ sampleRegistry.hasPackage ⟨"preview", "none", ⟨1, 0, 0⟩⟩ = .ok false
    ∧ AccountsForImports ImportGraph.samplePackage sampleOptions.registry result.report := by
  have hfates : (check ImportGraph.sampleFiles sampleOptions).toOption.map
      (fun result => result.graph.edges.map (·.resolution.fate))
      = some [.fine, .unresolved, .notFound, .fine, .fine, .fine, .fine, .fine, .fine] := by decide +kernel
  have hmanifest : (Manifest.load ImportGraph.sampleFiles).manifest.isSome = true := by decide +kernel
  cases h : check ImportGraph.sampleFiles sampleOptions with
  | error fault =>
    rw [h] at hfates
    cases hfates
  | ok result =>
    rw [h] at hfates
    exact ⟨result, rfl, Option.some.inj hfates, by decide, by decide,
      accountsForImports_of_check h hmanifest rfl rfl⟩

end TypstLint
