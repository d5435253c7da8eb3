import TypstLint.Proofs.Check.Returns

set_option autoImplicit false

/-! # What a check asks a registry

A check asks a registry whether it has the other packages that are imported, for the newest versions of
those that it has, and for the manifest of the version before the one that is checked. Registries that
give the same answers give the same result (`check_congr_registry`). -/

namespace TypstLint

/-- A file that is reached from the entrypoints imports a version of another package. -/
def Package.Imports (p : Package) (spec : Spec) : Prop :=
  ∃ source d lit, p.Reached source ∧ p.files.Brings source d lit ∧ p.IsOther lit.text spec

/-- Two registries give the same answers to what the check of a package asks them. -/
structure Registry.AgreesFor (r r' : Registry) (p : Package) : Prop where
  found : ∀ spec, p.Imports spec → r.hasPackage spec = r'.hasPackage spec
  latest : ∀ spec, p.Imports spec → r.hasPackage spec = .ok true →
    r.latestVersion spec.namespaceName spec.name = r'.latestVersion spec.namespaceName spec.name
  previous : p.manifest.isSome = true → ∀ spec, p.spec = some spec →
    r.previousVersion spec = r'.previousVersion spec
  before : p.manifest.isSome = true → ∀ spec, p.spec = some spec →
    ∀ previous, r.previousVersion spec = .ok (some previous) →
      r.readManifest previous = r'.readManifest previous

variable {p : Package} {r r' : Registry}

/-! ## The import graph -/

namespace ImportGraph

variable {outlines : Outlines} {nodes : List String} {edges : List Edge} {source target : String}
  {ds : List Markup.Directive} {node next fuel : Nat}

theorem resolveTarget_congr
    (h : ∀ spec, p.IsOther target spec → r.hasPackage spec = r'.hasPackage spec) :
    resolveTarget ⟨p, some r, outlines⟩ nodes source target
      = resolveTarget ⟨p, some r', outlines⟩ nodes source target := by
  unfold resolveTarget
  split
  · next hpackage =>
    unfold resolvePackage
    split
    · rfl
    · rfl
    · next spec hparse =>
      dsimp only
      split
      · rfl
      · next hnone =>
        have hother : p.IsOther target spec :=
          @isOther_of_filter ⟨p, some r, outlines⟩ target spec (beq_iff_eq.mp hpackage) hparse hnone
        unfold packageStatus
        dsimp only
        rw [h spec hother]
  · rfl

theorem edgesOf_congr
    (h : ∀ d ∈ ds, ∀ lit, d.target = some lit → ∀ spec, p.IsOther lit.text spec →
      r.hasPackage spec = r'.hasPackage spec) :
    edgesOf ⟨p, some r, outlines⟩ node source nodes ds
      = edgesOf ⟨p, some r', outlines⟩ node source nodes ds := by
  induction ds generalizing nodes with
  | nil => rfl
  | cons d rest ih =>
    have hrest (nodes : List String) : edgesOf ⟨p, some r, outlines⟩ node source nodes rest
        = edgesOf ⟨p, some r', outlines⟩ node source nodes rest :=
      ih fun d' hd' => h d' (List.mem_cons_of_mem d hd')
    unfold edgesOf
    split
    · exact hrest nodes
    · next lit hlit =>
      rw [resolveTarget_congr (h d List.mem_cons_self lit hlit)]
      simp only [hrest]

theorem explore_congr (h : ∀ spec, p.Imports spec → r.hasPackage spec = r'.hasPackage spec)
    (hexploring : Exploring ⟨p, some r, p.files.outlines⟩ next nodes edges) :
    explore ⟨p, some r, p.files.outlines⟩ fuel next nodes edges
      = explore ⟨p, some r', p.files.outlines⟩ fuel next nodes edges := by
  induction fuel generalizing next nodes edges with
  | zero => rfl
  | succ fuel ih =>
    unfold explore
    cases hnode : nodes[next]? with
    | none => rfl
    | some path =>
      have hreached : p.Reached path := hexploring.reached path (List.mem_of_getElem? hnode)
      have hsame : directivesOf ⟨p, some r', p.files.outlines⟩ path
          = directivesOf ⟨p, some r, p.files.outlines⟩ path := rfl
      dsimp only
      rw [hsame]
      cases hds : directivesOf ⟨p, some r, p.files.outlines⟩ path with
      | error fault => rfl
      | ok ds =>
        have hliteral := directivesOf_spec rfl hds
        have hedges : edgesOf ⟨p, some r, p.files.outlines⟩ next path nodes ds
            = edgesOf ⟨p, some r', p.files.outlines⟩ next path nodes ds := by
          refine edgesOf_congr fun d hd lit hlit spec hother => h spec ?_
          have hd' : d ∈ ds.filter (·.target.isSome) := List.mem_filter.mpr ⟨hd, by rw [hlit]; rfl⟩
          exact ⟨path, d, lit, hreached, hliteral.brings_iff.mpr ⟨hd', hlit⟩, hother⟩
        simp only [bind, Except.bind, ← hedges]
        cases hnew : edgesOf ⟨p, some r, p.files.outlines⟩ next path nodes ds with
        | error fault => rfl
        | ok grown => exact ih (hexploring.visit rfl hnode hds hnew)

theorem build_congr (h : ∀ spec, p.Imports spec → r.hasPackage spec = r'.hasPackage spec) :
    build ⟨p, some r, p.files.outlines⟩ = build ⟨p, some r', p.files.outlines⟩ := by
  unfold build
  dsimp only
  rw [explore_congr h (exploring_start ⟨p, some r, p.files.outlines⟩)]

theorem Settles.eq_package {input : Input} {spec : Spec} {res : Resolution}
    (h : Settles input nodes source target res) (hother : input.package.IsOther target spec) :
    ∃ status, res = .package spec status := by
  cases h with
  | file hrelative | outside hrelative | missing hrelative =>
    exact absurd hother.namesPackage hrelative
  | self _ hparse hown =>
    obtain rfl := Except.ok.inj (hother.parse.symm.trans hparse)
    exact absurd hown (hother.other _)
  | package hother' =>
    obtain rfl := Except.ok.inj (hother.parse.symm.trans hother'.parse)
    exact ⟨_, rfl⟩
  | invalidSpec _ hparse => cases hother.parse.symm.trans hparse

/-- The edges to packages are the imports of other packages. -/
theorem imports_iff {g : ImportGraph} {spec : Spec}
    (h : build ⟨p, some r, p.files.outlines⟩ = .ok g) :
    p.Imports spec ↔ ∃ e ∈ g.edges, ∃ status, e.resolution = .package spec status := by
  have hgraph := isGraphOf_of_build h
  constructor
  · rintro ⟨source, d, lit, hreached, hbrings, hother⟩
    obtain ⟨node, hnode⟩ := List.mem_iff_getElem?.mp ((hgraph.mem_nodes source).mpr hreached)
    obtain ⟨hd, hlit⟩ := (hgraph.directives node source hnode).brings_iff.mp hbrings
    obtain ⟨e, he, rfl⟩ := List.mem_map.mp hd
    obtain ⟨hedge, -⟩ := mem_outgoing.mp he
    obtain ⟨-, lit', hlit', hsettles⟩ := hgraph.settled e hedge
    obtain rfl := Option.some.inj (hlit'.symm.trans hlit)
    exact ⟨e, hedge, hsettles.eq_package hother⟩
  · rintro ⟨e, he, status, hresolution⟩
    obtain ⟨hlt, lit, hlit, hsettles⟩ := hgraph.settled e he
    rw [hresolution] at hsettles
    cases hsettles with
    | package hother =>
      have hnode : g.nodes[e.source]? = some (g.pathOf e.source) := by
        rw [pathOf, List.getElem?_eq_getElem hlt, Option.getD_some]
      have hreached := (hgraph.mem_nodes _).mp (List.mem_of_getElem? hnode)
      have hd : e.directive ∈ (g.outgoing e.source).map (·.directive) :=
        List.mem_map_of_mem ((hgraph.source_iff e he e.source).mpr rfl)
      have hbrings := (hgraph.directives e.source _ hnode).brings_iff.mpr ⟨hd, hlit⟩
      exact ⟨_, _, lit, hreached, hbrings, hother⟩

/-- Edges to packages say what is known about them. -/
theorem packageStatus_of_mem_edges {g : ImportGraph} {e : Edge} {spec : Spec} {status : PackageStatus}
    (h : build ⟨p, some r, p.files.outlines⟩ = .ok g) (he : e ∈ g.edges)
    (hresolution : e.resolution = .package spec status) :
    packageStatus (some r) spec = .ok status := by
  obtain ⟨-, lit, -, hsettles⟩ := (isGraphOf_of_build h).settled e he
  rw [hresolution] at hsettles
  cases hsettles with
  | package _ hstatus => exact hstatus

end ImportGraph

/-! ## Rules -/

namespace Rules

variable {ctx : Context}

/-- The name and the version are compared with those of the directory, in whatever registry it is. -/
theorem run_manifestIdentity_congr (ctx : Context) (r r' : Registry) :
    manifestIdentity.run { ctx with registry := some r }
      = manifestIdentity.run { ctx with registry := some r' } := by
  simp only [Rule.run, manifestIdentity, Rule.total]
  cases ctx.package.spec with
  | none => rfl
  | some spec =>
    cases ctx.package.manifest with
    | none => rfl
    | some m => rfl

theorem moduleScope_congr (fuel : Nat) (visited : List String) (path : String) :
    moduleScope { ctx with registry := some r } fuel visited path
      = moduleScope { ctx with registry := some r' } fuel visited path := by
  induction fuel generalizing visited path with
  | zero => rfl
  | succ fuel ih => simp only [moduleScope, ih]; rfl

theorem importedFrom_congr (fuel next : Nat) (found : List String) :
    importedFrom { ctx with registry := some r } fuel next found
      = importedFrom { ctx with registry := some r' } fuel next found := by
  induction fuel generalizing next found with
  | zero => rfl
  | succ fuel ih => simp only [importedFrom, ih]

theorem run_kebabCase_congr (ctx : Context) (r r' : Registry) :
    kebabCase.run { ctx with registry := some r } = kebabCase.run { ctx with registry := some r' } := by
  have hnames (path : String) : publicNames { ctx with registry := some r } path
      = publicNames { ctx with registry := some r' } path :=
    congrArg (·.map (·.names)) (moduleScope_congr _ _ _)
  have hfiles (path : String) : importedFiles { ctx with registry := some r } path
      = importedFiles { ctx with registry := some r' } path := importedFrom_congr _ _ _
  simp only [Rule.run, kebabCase, hnames, hfiles]
  rfl

theorem run_outdatedImports_congr
    (h : ∀ e ∈ ctx.graph.edges, newerVersion ctx r e = newerVersion ctx r' e) :
    outdatedImports.run { ctx with registry := some r }
      = outdatedImports.run { ctx with registry := some r' } := by
  have hevaluate : outdatedImports.evaluate { ctx with registry := some r }
      = outdatedImports.evaluate { ctx with registry := some r' } :=
    congrArg (·.map List.flatten) (mapM_congr h)
  rw [Rule.run, Rule.run, hevaluate]

theorem run_authorsChanged_congr
    (h : ctx.package.manifest.isSome = true → previousManifest { ctx with registry := some r }
      = previousManifest { ctx with registry := some r' }) :
    authorsChanged.run { ctx with registry := some r }
      = authorsChanged.run { ctx with registry := some r' } := by
  have hevaluate : authorsChanged.evaluate { ctx with registry := some r }
      = authorsChanged.evaluate { ctx with registry := some r' } := by
    cases hmanifest : ctx.package.manifest with
    | none => simp only [authorsChanged, hmanifest]
    | some m =>
      simp only [authorsChanged, hmanifest, h (by rw [hmanifest]; rfl)]
      rfl
  rw [Rule.run, Rule.run, hevaluate]

/-- Of all rules, two ask the registry. -/
theorem runAll_congr (ctx : Context)
    (houtdated : outdatedImports.run { ctx with registry := some r }
      = outdatedImports.run { ctx with registry := some r' })
    (hauthors : authorsChanged.run { ctx with registry := some r }
      = authorsChanged.run { ctx with registry := some r' }) :
    Rule.runAll all { ctx with registry := some r }
      = Rule.runAll all { ctx with registry := some r' } := by
  simp only [Rule.runAll, all, List.flatMap_cons, List.flatMap_nil]
  rw [run_manifestIdentity_congr ctx r r', run_kebabCase_congr ctx r r', houtdated, hauthors]
  rfl

theorem newerVersion_congr {e : Edge}
    (h : ∀ spec, e.resolution = .package spec .found →
      r.latestVersion spec.namespaceName spec.name = r'.latestVersion spec.namespaceName spec.name) :
    newerVersion ctx r e = newerVersion ctx r' e := by
  unfold newerVersion
  split
  · next spec hresolution => rw [h spec hresolution]
  · rfl

theorem previousManifest_congr (h : r.AgreesFor r' ctx.package)
    (hmanifest : ctx.package.manifest.isSome = true) :
    previousManifest { ctx with registry := some r }
      = previousManifest { ctx with registry := some r' } := by
  unfold previousManifest
  dsimp only
  cases hspec : ctx.package.spec with
  | none => rfl
  | some spec =>
    have hbefore := h.before hmanifest spec hspec
    dsimp only
    rw [← h.previous hmanifest spec hspec]
    cases hprevious : r.previousVersion spec with
    | error fault => rfl
    | ok previous? =>
      cases previous? with
      | none => rfl
      | some previous =>
        simp only [Except.map, bind, Option.bind, hbefore previous hprevious]

end Rules

/-! ## The check -/

variable {files : FileSet} {options : CheckOptions}

theorem importGraph_congr (h : r.AgreesFor r' p) :
    importGraph p (some r) p.files.outlines = importGraph p (some r') p.files.outlines := by
  unfold importGraph
  rw [ImportGraph.build_congr h.found]

/-- The edges to packages ask both registries for the same versions. -/
theorem newerVersion_congr_of_importGraph (h : r.AgreesFor r' p) {ctx : Context} {g : ImportGraph}
    (hgraph : importGraph p (some r) p.files.outlines = .ok g) :
    ∀ e ∈ g.edges, Rules.newerVersion ctx r e = Rules.newerVersion ctx r' e := by
  intro e he
  unfold importGraph at hgraph
  split at hgraph
  · refine Rules.newerVersion_congr fun spec hresolution => ?_
    have himports := (ImportGraph.imports_iff hgraph).mpr ⟨e, he, _, hresolution⟩
    obtain ⟨found, hfound, hstatus⟩ :=
      map_eq_ok.mp (ImportGraph.packageStatus_of_mem_edges hgraph he hresolution)
    cases found with
    | false => cases hstatus
    | true => exact h.latest spec himports hfound
  · obtain rfl := Except.ok.inj hgraph
    cases he

/-- What the rules of a check look at, for some graph and with no registry. -/
def CheckOptions.contextOf (options : CheckOptions) (files : FileSet) (g : ImportGraph) : Context where
  package := options.packageOf files
  graph := g
  outlines := files.outlines
  manifestProblems := (Manifest.load files).problems
  registry := none
  publication := options.publication
  manifestText := (Manifest.load files).text

/-- A check that problems of the manifest do not end builds the import graph and applies all rules. -/
theorem check_eq_map (hrules : options.rules = Rules.all)
    (hgoes : ¬ (options.shortCircuit && !(Manifest.load files).problems.isEmpty) = true) :
    check files { options with registry := some r } =
      (importGraph (options.packageOf files) (some r) files.outlines).map fun g =>
        ⟨options.packageOf files, g, .ofDiagnostics (options.packageOf files).label
          (Rule.runAll Rules.all { options.contextOf files g with registry := some r })⟩ := by
  unfold check
  dsimp only
  rw [if_neg hgoes, if_neg hgoes, hrules]
  rfl

/-- Registries that agree about what a check asks give the same result. -/
theorem check_congr_registry (options : CheckOptions) (hrules : options.rules = Rules.all)
    (h : r.AgreesFor r' (options.packageOf files)) :
    check files { options with registry := some r }
      = check files { options with registry := some r' } := by
  by_cases hstop : (options.shortCircuit && !(Manifest.load files).problems.isEmpty) = true
  · -- the registry is not asked when problems of the manifest end the check
    simp only [check, hstop, if_true]
    rfl
  · have hsame : importGraph (options.packageOf files) (some r) files.outlines
        = importGraph (options.packageOf files) (some r') files.outlines := importGraph_congr h
    rw [check_eq_map hrules hstop, check_eq_map hrules hstop, ← hsame]
    cases hgraph : importGraph (options.packageOf files) (some r) files.outlines with
    | error fault => simp only [Except.map]
    | ok g =>
      have hrun := Rules.runAll_congr (options.contextOf files g)
        (Rules.run_outdatedImports_congr (newerVersion_congr_of_importGraph h hgraph))
        (Rules.run_authorsChanged_congr (Rules.previousManifest_congr h))
      simp only [Except.map, hrun]

end TypstLint
