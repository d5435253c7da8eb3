import TypstLint.Check
import TypstLint.Proofs.ImportGraph.Cycles
import TypstLint.Proofs.ImportGraph.Explore
import TypstLint.Proofs.Manifest.Location
import TypstLint.Proofs.Markup.Places
import TypstLint.Proofs.Readme
import TypstLint.Proofs.Rules.Outdated

set_option autoImplicit false

/-! # The places of diagnostics

Spans come from scans of sources, from the lines of the manifest and from the introduction. Whichever
rule gives one to a diagnostic, it is a span of the text of the file that the diagnostic names
(`locates_of_mem_all`). -/

namespace TypstLint

open Markup (Binding Directive Outline)
open Text (Span)

/-- A span of the text of a file. -/
def FileSet.HasSpan (fs : FileSet) (path : String) (span : Span) : Prop :=
  ∃ source text, fs.get? path = some source ∧ source.text? = some text ∧ span.Within text.length

/-- If a diagnostic has a span, then this is one of the text of the file that it names. -/
def Diagnostic.IsLocated (fs : FileSet) (d : Diagnostic) : Prop :=
  ∀ span, d.span = some span → ∃ path, d.file = some path ∧ fs.HasSpan path span

variable {fs : FileSet} {ctx : Context} {d : Diagnostic} {path : String} {span : Span}
  {text : List Char}

theorem Diagnostic.isLocated_of_none (h : d.span = none) : d.IsLocated fs := by
  intro span hspan
  rw [h] at hspan
  cases hspan

theorem Diagnostic.isLocated_of_hasSpan (hfile : d.file = some path) (hspan : d.span = some span)
    (h : fs.HasSpan path span) : d.IsLocated fs := by
  intro span' hspan'
  rw [hspan] at hspan'
  exact ⟨path, hfile, Option.some.inj hspan' ▸ h⟩

theorem FileSet.exists_source_of_typstText? (h : fs.typstText? path = some text) :
    ∃ source, fs.get? path = some source ∧ source.text? = some text := by
  unfold typstText? at h
  split at h
  · exact Option.bind_eq_some_iff.mp h
  · cases h

theorem FileSet.hasSpan_of_typstText? (htext : fs.typstText? path = some text)
    (h : span.Within text.length) : fs.HasSpan path span := by
  obtain ⟨source, hsource, htext⟩ := exists_source_of_typstText? htext
  exact ⟨source, text, hsource, htext, h⟩

theorem FileSet.get?_of_mem {f : SourceFile} (h : f ∈ fs.files) : fs.get? f.path = some f := by
  unfold get?
  cases hfind : fs.files.find? (·.path == f.path) with
  | none => exact absurd (List.find?_eq_none.mp hfind f h) (by simp)
  | some g =>
    -- paths do not repeat, so two files with one path are the same
    have hg := List.mem_of_find?_eq_some hfind
    have hpath : g.path = f.path := by simpa using List.find?_some hfind
    have hnodup : (fs.files.map (·.path)).Nodup := List.pairwise_map.mpr fs.pairwise_path_ne
    rw [List.inj_on_of_nodup_map hnodup hg h hpath]

/-! ## What the rules look at -/

/-- What is known about a package was got from its files. -/
structure Context.IsSound (ctx : Context) : Prop where
  outlines : ctx.outlines = ctx.files.outlines
  manifestText : ctx.manifestText = (Manifest.load ctx.files).text
  brings : ∀ e ∈ ctx.graph.edges, ∃ lit, ctx.files.Brings (ctx.graph.pathOf e.source) e.directive lit

namespace Context.IsSound

theorem manifestSpan {table : String} {key : Option String} (h : ctx.IsSound)
    (hspan : ctx.manifestSpan table key = some span) : ctx.files.HasSpan manifestPath span := by
  obtain ⟨text, htext, hspan⟩ := Option.bind_eq_some_iff.mp hspan
  have hwithin := Manifest.keySpan_within hspan
  rw [h.manifestText, Manifest.load] at htext
  split at htext
  · cases htext
  · next source hsource =>
    split at htext
    · cases htext
    · next text' htext' =>
      have heq : text' = text := by
        split at htext
        · exact Option.some.inj htext
        · exact Option.some.inj htext
      exact ⟨source, text', hsource, htext', heq ▸ hwithin⟩

/-- The spans of what was scanned of a file are spans of its text. -/
theorem outline (h : ctx.IsSound) {outline : Outline}
    (houtline : ctx.outlines.lookup path = some (.ok outline)) :
    ∃ text, ctx.files.typstText? path = some text ∧ outline.Within text.length := by
  rw [h.outlines, FileSet.lookup_outlines] at houtline
  obtain ⟨text, htext, hscan⟩ := Option.map_eq_some_iff.mp houtline
  exact ⟨text, htext, Markup.scan_within hscan⟩

/-- The spans of the directives of edges are spans of the files that the edges start from. -/
theorem edge (h : ctx.IsSound) {e : Edge} (he : e ∈ ctx.graph.edges) :
    ∃ text, ctx.files.typstText? (ctx.graph.pathOf e.source) = some text
      ∧ e.directive.Within text.length := by
  obtain ⟨lit, text, outline, htext, hscan, hd, -⟩ := h.brings e he
  exact ⟨text, htext, (Markup.scan_within hscan).directives _ hd⟩

end Context.IsSound

/-- What a rule finds is located. -/
def Rule.Locates (rule : Rule) : Prop :=
  ∀ ctx : Context, ctx.IsSound → ∀ ds, rule.evaluate ctx = .ok ds → ∀ d ∈ ds, d.IsLocated ctx.files

theorem Rule.Locates.isLocated {rule : Rule} (h : rule.Locates) (hctx : ctx.IsSound)
    (hd : d ∈ rule.run ctx) : d.IsLocated ctx.files := by
  unfold Rule.run at hd
  split at hd
  · next ds hds => exact h ctx hctx ds hds d hd
  · obtain rfl := List.mem_singleton.mp hd
    exact Diagnostic.isLocated_of_none rfl

namespace Rules

theorem locates_total {id : String} {f : Context → List Diagnostic}
    (h : ∀ ctx : Context, ctx.IsSound → ∀ d ∈ f ctx, d.IsLocated ctx.files) :
    (Rule.total id f).Locates := by
  intro ctx hctx ds hds d hd
  obtain rfl := Except.ok.inj hds
  exact h ctx hctx d hd

/-- A rule whose diagnostics have no span. -/
theorem locates_of_none {id : String} {f : Context → List Diagnostic}
    (h : ∀ ctx, ∀ d ∈ f ctx, d.span = none) : (Rule.total id f).Locates :=
  locates_total fun ctx _ d hd => Diagnostic.isLocated_of_none (h ctx d hd)

theorem locates_map_of_none {α : Type} {id : String} {f : Context → List α}
    {g : Context → α → Diagnostic} (h : ∀ ctx a, (g ctx a).span = none) :
    (Rule.total id fun ctx => (f ctx).map (g ctx)).Locates := by
  refine locates_of_none fun ctx d hd => ?_
  obtain ⟨a, -, rfl⟩ := List.mem_map.mp hd
  exact h ctx a

theorem locates_ite_of_none {id : String} {p : Context → Bool} {found : Diagnostic}
    (h : found.span = none) : (Rule.total id fun ctx => if p ctx then [found] else []).Locates := by
  refine locates_of_none fun ctx d hd => ?_
  split at hd
  · rw [List.mem_singleton.mp hd, h]
  · cases hd

/-! ## The manifest -/

theorem isLocated_of_manifestSpan {table : String} {key : Option String} (hctx : ctx.IsSound)
    (hfile : d.file = some manifestPath) (hspan : d.span = ctx.manifestSpan table key) :
    d.IsLocated ctx.files := by
  intro span h
  exact ⟨manifestPath, hfile, hctx.manifestSpan (hspan.symm.trans h)⟩

theorem locates_manifestProblems : manifestProblems.Locates := by
  refine locates_total fun ctx hctx d hd => ?_
  obtain ⟨problem, -, rfl⟩ := List.mem_map.mp hd
  intro span hspan
  refine ⟨manifestPath, rfl, ?_⟩
  obtain ⟨table, -, hspan⟩ := Option.bind_eq_some_iff.mp hspan
  cases hkey : ctx.manifestSpan table problem.key with
  | some found =>
    rw [hkey] at hspan
    exact Option.some.inj hspan ▸ hctx.manifestSpan hkey
  | none =>
    -- without a place of its own, a problem is shown at the header of its table
    rw [hkey] at hspan
    change (if problem.key.isSome then ctx.manifestSpan table none else none) = some span at hspan
    split at hspan
    · exact hctx.manifestSpan hspan
    · cases hspan

theorem isLocated_manifestError (hctx : ctx.IsSound) {ruleId message : String} {key : Option String} :
    (manifestError ctx ruleId message key).IsLocated ctx.files :=
  isLocated_of_manifestSpan hctx rfl rfl

theorem locates_manifestIdentity : manifestIdentity.Locates := by
  refine locates_total fun ctx hctx d hd => ?_
  split at hd
  · rcases List.mem_append.mp hd with hd | hd
    · split at hd
      · cases hd
      · exact List.mem_singleton.mp hd ▸ isLocated_manifestError hctx
    · split at hd
      · cases hd
      · exact List.mem_singleton.mp hd ▸ isLocated_manifestError hctx
  · cases hd

theorem locates_manifestMetadata : manifestMetadata.Locates := by
  refine locates_total fun ctx hctx d hd => ?_
  split at hd
  · split at hd
    · obtain ⟨⟨key, present⟩, -, hd⟩ := List.mem_filterMap.mp hd
      simp only [Option.ite_none_left_eq_some, Option.some.injEq] at hd
      exact hd.2 ▸ isLocated_manifestError hctx
    · cases hd
  · cases hd

theorem locates_authorsChanged : authorsChanged.Locates := by
  intro ctx hctx ds hds d hd
  simp only [authorsChanged] at hds
  split at hds
  · obtain rfl := Except.ok.inj hds
    cases hd
  · obtain ⟨previous?, -, rfl⟩ := map_eq_ok.mp hds
    split at hd
    · cases hd
    · split at hd
      · cases hd
      · obtain rfl := List.mem_singleton.mp hd
        exact isLocated_of_manifestSpan hctx rfl rfl

/-! ## Imports -/

theorem isLocated_edgeDiagnostic (hctx : ctx.IsSound) {e : Edge} (he : e ∈ ctx.graph.edges)
    {severity : Severity} {ruleId message : String} :
    (edgeDiagnostic ctx severity ruleId message e).IsLocated ctx.files := by
  obtain ⟨text, htext, hspan, htarget⟩ := hctx.edge he
  refine Diagnostic.isLocated_of_hasSpan rfl rfl (FileSet.hasSpan_of_typstText? htext ?_)
  cases h : e.directive.target with
  | none => exact hspan
  | some target => exact htarget target h

theorem locates_unresolvedImports : unresolvedImports.Locates := by
  refine locates_total fun ctx hctx d hd => ?_
  obtain ⟨e, he, hd⟩ := List.mem_filterMap.mp hd
  obtain ⟨problem, -, rfl⟩ := Option.map_eq_some_iff.mp hd
  exact isLocated_edgeDiagnostic hctx he

theorem locates_packagesNotFound : packagesNotFound.Locates := by
  refine locates_total fun ctx hctx d hd => ?_
  obtain ⟨e, he, hd⟩ := List.mem_filterMap.mp hd
  unfold notFoundDiagnostic? at hd
  split at hd
  · exact Option.some.inj hd ▸ isLocated_edgeDiagnostic hctx he
  · cases hd

theorem locates_relativeEntrypoint : relativeEntrypoint.Locates := by
  refine locates_total fun ctx hctx d hd => ?_
  obtain ⟨e, he, rfl⟩ := List.mem_map.mp hd
  exact isLocated_edgeDiagnostic hctx (List.mem_filter.mp he).1

theorem locates_outdatedImports : outdatedImports.Locates := by
  intro ctx hctx ds hds d hd
  obtain ⟨r, -, e, he, spec, v, -, rfl⟩ := (mem_outdatedImports_iff hds).mp hd
  exact isLocated_edgeDiagnostic hctx he

theorem locates_importCycles : importCycles.Locates := by
  refine locates_total fun ctx hctx d hd => ?_
  obtain ⟨c, hc, rfl⟩ := List.mem_map.mp hd
  obtain ⟨e, he, hanchor, hdirective⟩ := ImportGraph.exists_edge_of_mem_cycles hc
  obtain ⟨text, htext, hspan, -⟩ := hctx.edge he
  rw [← hanchor] at htext
  rw [← hdirective] at hspan
  exact Diagnostic.isLocated_of_hasSpan rfl rfl (FileSet.hasSpan_of_typstText? htext hspan)

/-! ## Sources -/

theorem locates_sourceIssues : sourceIssues.Locates := by
  intro ctx hctx ds hds d hd
  obtain ⟨dss, hdss, h⟩ := bind_eq_ok.mp hds
  obtain rfl := Except.ok.inj h
  obtain ⟨found, hfound, hd⟩ := List.mem_flatten.mp hd
  obtain ⟨⟨path, outline⟩, hmem, h⟩ := exists_of_mem_mapM hdss hfound
  obtain ⟨outline, houtline, h⟩ := bind_eq_ok.mp h
  obtain rfl := Except.ok.inj h
  obtain ⟨issue, hissue, rfl⟩ := List.mem_map.mp hd
  -- the outline is the scan of the text of one of the sources
  rw [hctx.outlines] at hmem
  obtain ⟨f, hf, hscan⟩ := List.mem_filterMap.mp hmem
  obtain ⟨text, htext, hscan⟩ := Option.map_eq_some_iff.mp hscan
  obtain ⟨rfl, rfl⟩ := Prod.mk.inj hscan
  refine Diagnostic.isLocated_of_hasSpan rfl rfl ⟨f, text, ?_, htext, ?_⟩
  · exact FileSet.get?_of_mem (List.mem_filter.mp hf).1
  · exact (Markup.scan_within houtline).issues issue hissue

theorem isLocated_bindingWarnings (htext : fs.typstText? path = some text) {b : Binding}
    (hb : b.Within text.length) (hd : d ∈ bindingWarnings path b) : d.IsLocated fs := by
  rcases List.mem_append.mp hd with hd | hd
  · split at hd
    · cases hd
    · obtain rfl := List.mem_singleton.mp hd
      exact Diagnostic.isLocated_of_hasSpan rfl rfl (FileSet.hasSpan_of_typstText? htext hb.1)
  · obtain ⟨param, hparam, rfl⟩ := List.mem_map.mp hd
    have hwithin := hb.2 param (List.mem_filter.mp hparam).1
    exact Diagnostic.isLocated_of_hasSpan rfl rfl (FileSet.hasSpan_of_typstText? htext hwithin)

theorem locates_kebabCase : kebabCase.Locates := by
  intro ctx hctx ds hds d hd
  simp only [kebabCase] at hds
  split at hds
  · obtain rfl := Except.ok.inj hds
    cases hd
  · obtain ⟨names, -, h⟩ := bind_eq_ok.mp hds
    obtain ⟨dss, hdss, h⟩ := bind_eq_ok.mp h
    obtain rfl := Except.ok.inj h
    obtain ⟨found, hfound, hd⟩ := List.mem_flatten.mp hd
    obtain ⟨path, -, h⟩ := exists_of_mem_mapM hdss hfound
    obtain ⟨outline?, houtline, h⟩ := bind_eq_ok.mp h
    cases outline? with
    | none =>
      obtain rfl := Except.ok.inj h
      cases hd
    | some outline =>
      obtain rfl := Except.ok.inj h
      obtain ⟨b, hb, hd⟩ := List.mem_flatMap.mp hd
      have hlookup : ctx.outlines.lookup path = some (.ok outline) := by
        unfold outlineOf at houtline
        split at houtline
        · cases houtline
        · next scanned hscanned =>
          obtain ⟨outline', rfl, heq⟩ := map_eq_ok.mp houtline
          rw [hscanned, Option.some.inj heq]
      obtain ⟨text, htext, hwithin⟩ := hctx.outline hlookup
      exact isLocated_bindingWarnings htext (hwithin.bindings b (List.mem_filter.mp hb).1) hd

/-! ## The introduction -/

theorem hasSpan_of_readmeText (htext : readmeText ctx = some text) (h : span.Within text.length) :
    ctx.files.HasSpan readmePath span := by
  obtain ⟨source, hsource, htext⟩ := Option.bind_eq_some_iff.mp htext
  exact ⟨source, text, hsource, htext, h⟩

theorem locates_readmeExtensions : readmeExtensions.Locates := by
  refine locates_total fun ctx hctx d hd => ?_
  split at hd
  · cases hd
  · next text htext =>
    obtain ⟨found, hfound, rfl⟩ := List.mem_map.mp hd
    have hwithin := Readme.extensions_within hfound
    exact Diagnostic.isLocated_of_hasSpan rfl rfl (hasSpan_of_readmeText htext hwithin)

theorem locates_readmeExamples : readmeExamples.Locates := by
  intro ctx hctx ds hds d hd
  simp only [readmeExamples] at hds
  split at hds
  · obtain rfl := Except.ok.inj hds
    cases hd
  · next text htext =>
    obtain ⟨dss, hdss, rfl⟩ := map_eq_ok.mp hds
    obtain ⟨found, hfound, hd⟩ := List.mem_flatten.mp hd
    obtain ⟨block, hblock, h⟩ := exists_of_mem_mapM hdss hfound
    obtain ⟨outline, hscan, rfl⟩ := map_eq_ok.mp h
    obtain ⟨issue, hissue, rfl⟩ := List.mem_map.mp hd
    have hbody := (Readme.scan_upTo text).2 block (List.mem_filter.mp hblock).1
    have hissue := (Markup.scan_within hscan).issues issue hissue
    refine Diagnostic.isLocated_of_hasSpan rfl rfl (hasSpan_of_readmeText htext ?_)
    -- a span of the body, moved on to where the body starts
    have hnonneg := hissue.nonneg
    have hlt := hissue.lt
    have hle := hissue.le
    constructor
    · show (0 : Int) ≤ block.bodyStart + issue.span.start
      omega
    · show block.bodyStart + issue.span.start < block.bodyStart + issue.span.stop
      omega
    · show block.bodyStart + issue.span.stop ≤ text.length
      omega

/-! ## All rules -/

/-- What a rule finds is located. -/
theorem locates_of_mem_all {rule : Rule} (h : rule ∈ all) : rule.Locates := by
  simp only [all, List.mem_cons, List.not_mem_nil, or_false] at h
  rcases h with rfl | rfl | rfl | rfl | rfl | rfl | rfl | rfl | rfl | rfl | rfl | rfl | rfl | rfl
    | rfl | rfl | rfl | rfl | rfl | rfl
  · exact locates_manifestProblems
  · exact locates_manifestIdentity
  · exact locates_manifestMetadata
  · exact locates_ite_of_none rfl
  · exact locates_unresolvedImports
  · exact locates_packagesNotFound
  · exact locates_importCycles
  · exact locates_relativeEntrypoint
  · exact locates_outdatedImports
  · exact locates_map_of_none fun _ _ => rfl
  · exact locates_map_of_none fun _ _ => rfl
  · exact locates_map_of_none fun _ _ => rfl
  · exact locates_map_of_none fun _ _ => rfl
  · exact locates_map_of_none fun _ _ => rfl
  · exact locates_sourceIssues
  · exact locates_kebabCase
  · exact locates_ite_of_none rfl
  · exact locates_readmeExtensions
  · exact locates_readmeExamples
  · exact locates_authorsChanged

end Rules

end TypstLint
