import TypstLint.Manifest.Load
import TypstLint.Proofs.ImportGraph.Components
import TypstLint.Proofs.ImportGraph.Explore

set_option autoImplicit false

/-! # The graph of a package

`IsGraphOf` says what the graph of a package is, in terms of the files and their directives alone: the
nodes are the least set of files that holds the entrypoints and is closed under imports, the edges are
the directives of the nodes with literal targets, grouped by their source, and each of them says truly
what its target leads to. The graph that is built is the graph of the package, and building it fails
only because of a file that is reached (`isGraphOf_or_fails_of_build`). -/

namespace TypstLint

namespace ImportGraph

/-- The graph of a package. -/
structure IsGraphOf (p : Package) (registry : Option Registry) (g : ImportGraph) : Prop where
  mem_nodes : ∀ path, path ∈ g.nodes ↔ p.Reached path
  nodes_nodup : g.nodes.Nodup
  index_inverse : ∀ path node, g.index? path = some node ↔ g.nodes[node]? = some path
  directives : ∀ node path, g.nodes[node]? = some path →
    p.files.LiteralDirectives path ((g.outgoing node).map (·.directive))
  grouped : g.edges = (List.range g.nodes.length).flatMap g.outgoing
  source_iff : ∀ e ∈ g.edges, ∀ node, e ∈ g.outgoing node ↔ e.source = node
  settled : ∀ e ∈ g.edges, e.source < g.nodes.length
    ∧ IsSettled ⟨p, registry, p.files.outlines⟩ g.nodes (g.pathOf e.source) e
  internal : ∀ e ∈ g.edges, ∀ t, e.target? = some t →
    ∃ path, g.nodes[t]? = some path ∧ path ∈ p.files.paths
  unreachable : (∃ path ∈ p.entrypoints, p.files.contains path = true) →
    ∀ path, path ∈ g.unreachable ↔ path ∈ p.files.paths ∧ SourceFile.isTypstPath path = true
      ∧ path ∉ g.nodes ∧ p.isExcluded path = false

variable {p : Package} {registry : Option Registry} {g : ImportGraph} {nodes : List String}
  {edges : List Edge} {input : Input} {fault : Fault}

theorem pathOf_of_getElem? {node : Nat} {path : String} (h : g.nodes[node]? = some path) :
    g.pathOf node = path := by
  rw [pathOf, h, Option.getD_some]

/-- What is reached was visited: the nodes that are all visited are closed under imports. -/
theorem Exploring.mem_of_reached (h : Exploring input nodes.length nodes edges) {path : String}
    (hreached : input.package.Reached path) : path ∈ nodes := by
  induction hreached with
  | entrypoint hentrypoint hfile => exact h.starts _ hentrypoint hfile
  | @step source path d lit _ hbrings hleads ih =>
    -- the file before it is a node, so it was visited, and the directive gave an edge to this file
    obtain ⟨i, hi⟩ := List.mem_iff_getElem?.mp ih
    obtain ⟨hlt, -⟩ := List.getElem?_eq_some_iff.mp hi
    obtain ⟨hd, hlit⟩ := (h.directives i hlt source hi).brings_iff.mp hbrings
    obtain ⟨e, he, rfl⟩ := List.mem_map.mp hd
    obtain ⟨hedge, hsource⟩ := List.mem_filter.mp he
    obtain ⟨source', hsource', lit', hlit', hsettles⟩ := h.settled e hedge
    rw [beq_iff_eq.mp hsource] at hsource'
    obtain rfl := Option.some.inj (hsource'.symm.trans hi)
    obtain rfl := Option.some.inj (hlit'.symm.trans hlit)
    obtain ⟨t, -, ht⟩ := hsettles.node_of_leadsTo hleads
    exact List.mem_of_getElem? ht

/-- What building a graph does, apart from the walk through the files. -/
theorem exists_explored (h : build input = .ok g)
    (hinput : input.outlines = input.package.files.outlines) :
    Exploring input g.nodes.length g.nodes g.edges
      ∧ ((∃ path ∈ input.package.entrypoints, input.package.files.contains path = true) →
          g.unreachable = (input.package.files.typstFiles.map (·.path)).filter fun path =>
            !g.nodes.contains path && !input.package.isExcluded path) := by
  unfold build at h
  obtain ⟨⟨nodes, edges⟩, hexplore, hg⟩ := bind_eq_ok.mp h
  obtain rfl := Except.ok.inj hg
  refine ⟨explore_spec hinput hexplore (exploring_start input) (Nat.lt_succ_self _), ?_⟩
  rintro ⟨path, hpath, hfile⟩
  have hmem := (exploring_start input).starts path hpath hfile
  refine if_neg fun hempty => ?_
  rw [List.isEmpty_iff.mp hempty] at hmem
  cases hmem

/-- A graph whose nodes are all visited is well-formed. -/
theorem Exploring.wellFormed (h : Exploring input g.nodes.length g.nodes g.edges) : g.WellFormed where
  nodes_nodup := h.nodup
  source_lt := h.source_lt
  target_lt := by
    intro e he t ht
    obtain ⟨_, -, _, -, hsettles⟩ := h.settled e he
    obtain ⟨path, hpath, -⟩ := hsettles.leadsTo ht
    exact (List.getElem?_eq_some_iff.mp hpath).1

theorem exists_fails (h : build input = .error fault)
    (hinput : input.outlines = input.package.files.outlines) :
    ∃ source, input.package.Reached source ∧ FileFails input source fault := by
  unfold build at h
  rcases bind_eq_error.mp h with h | ⟨⟨nodes, edges⟩, -, h⟩
  · exact explore_fails hinput h (exploring_start input)
  · cases h

/-- The files to which targets lead are in the package. -/
theorem Exploring.internal (h : Exploring input g.nodes.length g.nodes g.edges) {e : Edge} {t : Nat}
    (he : e ∈ g.edges) (ht : e.target? = some t) :
    ∃ path, g.nodes[t]? = some path ∧ path ∈ input.package.files.paths := by
  obtain ⟨source, -, lit, -, hsettles⟩ := h.settled e he
  obtain ⟨path, hpath, hleads⟩ := hsettles.leadsTo ht
  exact ⟨path, hpath, FileSet.contains_iff.mp hleads.contains⟩

/-- The graph that is built is the graph of the package. -/
theorem isGraphOf_of_build (h : build ⟨p, registry, p.files.outlines⟩ = .ok g) :
    IsGraphOf p registry g := by
  obtain ⟨hexplored, hunreachable⟩ := exists_explored h rfl
  refine
    { mem_nodes := fun path => ⟨hexplored.reached path, hexplored.mem_of_reached⟩
      nodes_nodup := hexplored.nodup
      index_inverse := fun _ _ => index?_eq_some_iff hexplored.wellFormed
      directives := ?directives
      grouped := hexplored.grouped
      source_iff := ?source_iff
      settled := ?settled
      internal := fun _ he _ ht => hexplored.internal he ht
      unreachable := ?unreachable }
  case directives =>
    intro node path hnode
    obtain ⟨hlt, -⟩ := List.getElem?_eq_some_iff.mp hnode
    exact hexplored.directives node hlt path hnode
  case source_iff =>
    intro e he node
    rw [mem_outgoing]
    exact ⟨fun hmem => hmem.2, fun hsource => ⟨he, hsource⟩⟩
  case settled =>
    intro e he
    obtain ⟨path, hpath, hsettled⟩ := hexplored.settled e he
    exact ⟨hexplored.source_lt e he, by rwa [pathOf_of_getElem? hpath]⟩
  case unreachable =>
    intro hstarts path
    rw [hunreachable hstarts, List.mem_filter, FileSet.mem_typst_paths, Bool.and_eq_true,
      Bool.not_eq_true', Bool.not_eq_true', Bool.eq_false_iff, ne_eq, List.contains_iff_mem]
    tauto

/-- Either the graph of the package is built, or one of the files that are reached is in the way. -/
theorem isGraphOf_or_fails_of_build (p : Package) (registry : Option Registry) :
    (∀ g, build ⟨p, registry, p.files.outlines⟩ = .ok g → IsGraphOf p registry g)
    ∧ ∀ fault, build ⟨p, registry, p.files.outlines⟩ = .error fault →
      ∃ source, p.Reached source ∧ FileFails ⟨p, registry, p.files.outlines⟩ source fault :=
  ⟨fun _ h => isGraphOf_of_build h, fun _ h => exists_fails h rfl⟩

/-- Files that import each other, also out of a directory: by a path that leads up, by one from the root of the
package and by one within the directory. The entrypoint also imports a file that is missing and two packages, and
nothing imports `other.typ`. -/
def sampleFiles : FileSet where
  files :=
    [⟨"lib.typ", "#import \"main.typ\": f\n#import \"parts/box.typ\"".toUTF8⟩,
     ⟨"main.typ", ("#import \"lib.typ\"\n#import \"gone.typ\"\n#import \"@preview/none:1.0.0\"\n"
       ++ "#import \"@preview/cetz:0.2.0\"").toUTF8⟩,
     ⟨"other.typ", "".toUTF8⟩,
     ⟨"parts/box.typ", "#import \"../lib.typ\"\n#import \"/main.typ\"\n#import \"line.typ\"".toUTF8⟩,
     ⟨"parts/line.typ", "".toUTF8⟩,
     ⟨"typst.toml",
      "[package]\nname = \"demo\"\nversion = \"1.0.0\"\nentrypoint = \"main.typ\"\n".toUTF8⟩]
  escapedLinks := []
  sorted := by decide

/-- The package of the sample files. -/
def samplePackage : Package := ⟨sampleFiles, (Manifest.load sampleFiles).manifest, none⟩

/-- All files but one are in the graph, and the edges lead where the targets say. -/
theorem isGraphOf_sample : ∃ g, build ⟨samplePackage, none, sampleFiles.outlines⟩ = .ok g
    ∧ IsGraphOf samplePackage none g
    ∧ g.nodes = ["main.typ", "lib.typ", "parts/box.typ", "parts/line.typ"]
    ∧ g.edges.map (fun e => (e.source, e.target?))
      = [(0, some 1), (0, none), (0, none), (0, none), (1, some 0), (1, some 2), (2, some 1), (2, some 0),
          (2, some 3)]
    ∧ g.unreachable = ["other.typ"] := by
  have hbuilt : (build ⟨samplePackage, none, sampleFiles.outlines⟩).toOption.map
      (fun g => (g.nodes, g.edges.map fun e => (e.source, e.target?), g.unreachable))
      = some (["main.typ", "lib.typ", "parts/box.typ", "parts/line.typ"],
        [(0, some 1), (0, none), (0, none), (0, none), (1, some 0), (1, some 2), (2, some 1), (2, some 0),
          (2, some 3)], ["other.typ"]) := by decide +kernel
  cases h : build ⟨samplePackage, none, sampleFiles.outlines⟩ with
  | error fault =>
    rw [h] at hbuilt
    cases hbuilt
  | ok g =>
    rw [h] at hbuilt
    obtain ⟨hnodes, hrest⟩ := Prod.mk.inj (Option.some.inj hbuilt)
    obtain ⟨hedges, hunreachable⟩ := Prod.mk.inj hrest
    exact ⟨g, rfl, (isGraphOf_or_fails_of_build samplePackage none).1 g h, hnodes, hedges, hunreachable⟩

end ImportGraph

end TypstLint
