import Mathlib.Logic.Relation
import TypstLint.Proofs.Check.Imports
import TypstLint.Proofs.Distinct
import TypstLint.Proofs.Except
import TypstLint.Proofs.ImportGraph.Build
import TypstLint.Proofs.ImportGraph.Fate
import TypstLint.Proofs.ImportGraph.Numbering
import TypstLint.Proofs.Markup.Scan
import TypstLint.Proofs.Rules.Places
import TypstLint.Rules.Names

set_option autoImplicit false

/-! # The names that a package offers

The walk along wildcard imports visits every file that they reach, once, and collects what these files
declare (`publicNames_closure`). The rule about names takes such a name for public in whatever file it is
bound (`mem_kebabCase_iff`). So it finds all bindings that the entrypoint offers, and others too. -/

namespace TypstLint

open Markup (Binding Directive Outline)
open Relation (ReflTransGen)

/-! ## What files declare -/

/-- A Typst source was scanned. -/
def FileSet.HasOutline (fs : FileSet) (path : String) (outline : Outline) : Prop :=
  ∃ text, fs.typstText? path = some text ∧ Markup.scan text = .ok outline

/-- A file binds a name, or imports a file under it, or imports it from a file. -/
def Markup.Outline.Declares (outline : Outline) (name : String) : Prop :=
  (∃ b ∈ outline.bindings, b.name = name)
    ∨ ∃ d ∈ outline.directives, d.kind = .importing ∧ (d.newName = some name ∨ name ∈ d.items)

/-- A Typst source declares a name. -/
def FileSet.Declares (fs : FileSet) (path name : String) : Prop :=
  ∃ outline, fs.HasOutline path outline ∧ outline.Declares name

theorem FileSet.HasOutline.unique {fs : FileSet} {path : String} {outline outline' : Outline}
    (h : fs.HasOutline path outline) (h' : fs.HasOutline path outline') : outline' = outline := by
  obtain ⟨text, htext, hscan⟩ := h
  obtain ⟨text', htext', hscan'⟩ := h'
  obtain rfl := Option.some.inj (htext.symm.trans htext')
  exact Except.ok.inj (hscan'.symm.trans hscan)

namespace Markup

variable {cur cur' : Cursor} {found : List Finding} {d : Directive}

theorem newName_readAlias_ne (cur : Cursor) : (readAlias cur).newName ≠ some "" := by
  unfold readAlias
  simp only
  split
  · split
    · simp
    · next hident =>
      intro h
      have hlist := congrArg String.toList (Option.some.inj h)
      rw [String.toList_ofList] at hlist
      simp [hlist] at hident
  · simp

theorem newName_readItems {clauses clauses' : Clauses} (h : readItems clauses cur = .ok clauses') :
    clauses'.newName = clauses.newName := by
  unfold readItems at h
  simp only at h
  split at h
  · obtain rfl := Except.ok.inj h
    rfl
  · split at h
    · obtain ⟨group, -, rfl⟩ := map_eq_ok.mp h
      rfl
    · obtain rfl := Except.ok.inj h
      rfl

theorem newName_readClauses_ne {kind : DirectiveKind} {clauses : Clauses}
    (h : kind.readClauses cur = .ok clauses) : clauses.newName ≠ some "" := by
  cases kind with
  | including =>
    obtain rfl := Except.ok.inj h
    simp
  | importing =>
    unfold DirectiveKind.readClauses Markup.readClauses at h
    simp only at h
    split at h
    · rw [newName_readItems h]
      exact newName_readAlias_ne cur
    · obtain rfl := Except.ok.inj h
      exact newName_readAlias_ne cur

/-- A file is imported under a name that is not empty. -/
theorem newName_ne_of_scan {text : List Char} {outline : Outline} (h : scan text = .ok outline)
    (hd : d ∈ outline.directives) : d.newName ≠ some "" := by
  obtain ⟨kind, start, cur, cur', found, hread, hd⟩ := exists_readDirective_of_scan h hd
  unfold readDirective at hread
  simp only at hread
  split at hread
  · obtain ⟨-, rfl⟩ := Prod.mk.inj (Except.ok.inj hread)
    obtain rfl := List.mem_singleton.mp hd
    simp
  · obtain ⟨⟨text?, length⟩, -, hread⟩ := bind_eq_ok.mp hread
    cases text? with
    | none =>
      obtain ⟨-, rfl⟩ := Prod.mk.inj (Except.ok.inj hread)
      cases hd
    | some text =>
      obtain ⟨clauses, hclauses, hread⟩ := bind_eq_ok.mp hread
      obtain ⟨-, rfl⟩ := Prod.mk.inj (Except.ok.inj hread)
      rw [List.filterMap_append, filterMap_directive?_issues, List.nil_append] at hd
      obtain rfl := List.mem_singleton.mp hd
      exact newName_readClauses_ne hclauses

end Markup

/-! ## Imports between files -/

namespace ImportGraph

/-- A file imports another one by a relative path, in a directive with a property. -/
def ImportsBy (g : ImportGraph) (p : Directive → Prop) (path target : String) : Prop :=
  ∃ e ∈ g.edges, g.pathOf e.source = path ∧ e.directive.kind = .importing ∧ p e.directive
    ∧ ∃ node, e.resolution = .file node ∧ g.pathOf node = target

/-- A file imports another one by a relative path. -/
def ImportsFile (g : ImportGraph) : String → String → Prop := g.ImportsBy fun _ => True

/-- A file imports all that another one offers. -/
def ImportsAll (g : ImportGraph) : String → String → Prop := g.ImportsBy (·.wildcard = true)

/-- A file imports a name from another one, or all that this one offers. -/
def ImportsName (g : ImportGraph) (name : String) : String → String → Prop :=
  g.ImportsBy fun d => d.wildcard = true ∨ name ∈ d.items

variable {g : ImportGraph} {input : Input} {p q : Directive → Prop} {path target : String} {e : Edge}

theorem ImportsBy.imp (hpq : ∀ d, p d → q d) (h : g.ImportsBy p path target) :
    g.ImportsBy q path target := by
  obtain ⟨e, he, hsource, hkind, hp, hnode⟩ := h
  exact ⟨e, he, hsource, hkind, hpq _ hp, hnode⟩

theorem ImportsBy.mem_nodes (hg : g.WellFormed) (h : g.ImportsBy p path target) :
    path ∈ g.nodes ∧ target ∈ g.nodes := by
  obtain ⟨e, he, rfl, -, -, node, hresolution, rfl⟩ := h
  have htarget : e.target? = some node := by
    rw [Edge.target?, hresolution]
    rfl
  exact ⟨pathOf_mem (hg.source_lt e he), pathOf_mem (hg.target_lt e he node htarget)⟩

theorem mem_nodes_of_reached (hg : g.WellFormed) (h : ReflTransGen (g.ImportsBy p) path target)
    (hpath : path ∈ g.nodes) : target ∈ g.nodes := by
  cases h with
  | refl => exact hpath
  | tail _ hlast => exact (hlast.mem_nodes hg).2

theorem mem_edgesFrom (hg : g.WellFormed) :
    e ∈ g.edgesFrom path ↔ e ∈ g.edges ∧ g.pathOf e.source = path := by
  constructor
  · intro he
    unfold edgesFrom at he
    split at he
    · next node hindex =>
      obtain ⟨hedge, rfl⟩ := mem_outgoing.mp he
      exact ⟨hedge, pathOf_of_getElem? ((index?_eq_some_iff hg).mp hindex)⟩
    · cases he
  · rintro ⟨hedge, rfl⟩
    rw [edgesFrom_pathOf hg (hg.source_lt e hedge)]
    exact mem_outgoing.mpr ⟨hedge, rfl⟩

/-- The directives of edges are directives of the files that the edges start from. -/
theorem Exploring.directive_mem (h : Exploring input g.nodes.length g.nodes g.edges) (he : e ∈ g.edges)
    {outline : Outline} (houtline : input.package.files.HasOutline (g.pathOf e.source) outline) :
    e.directive ∈ outline.directives := by
  obtain ⟨lit, -, hbrings, -⟩ := h.exists_import he
  obtain ⟨text, outline', htext, hscan, hd, -⟩ := hbrings
  obtain rfl := houtline.unique ⟨text, htext, hscan⟩
  exact hd

/-- A file that imports another one was scanned. -/
theorem Exploring.hasOutline_of_importsBy (h : Exploring input g.nodes.length g.nodes g.edges)
    (himports : g.ImportsBy p path target) : ∃ outline, input.package.files.HasOutline path outline := by
  obtain ⟨e, he, rfl, -⟩ := himports
  obtain ⟨lit, -, ⟨text, outline, htext, hscan, -⟩, -⟩ := h.exists_import he
  exact ⟨outline, text, htext, hscan⟩

/-- The files of nodes that are Typst sources were scanned. -/
theorem Exploring.hasOutline (h : Exploring input g.nodes.length g.nodes g.edges)
    (hpath : path ∈ g.nodes) {text : List Char} (htext : input.package.files.typstText? path = some text) :
    ∃ outline, input.package.files.HasOutline path outline := by
  obtain ⟨i, hi⟩ := List.mem_iff_getElem?.mp hpath
  have hliteral := h.directives i (List.getElem?_eq_some_iff.mp hi).1 path hi
  rw [FileSet.LiteralDirectives, htext] at hliteral
  obtain ⟨outline, hscan, -⟩ := hliteral
  exact ⟨outline, text, htext, hscan⟩

end ImportGraph

namespace Rules

variable {ctx : Context} {path target name entrypoint : String} {outline : Outline}

theorem mem_ownNames_iff (h : ctx.files.HasOutline path outline) :
    name ∈ ownNames outline ↔ outline.Declares name := by
  obtain ⟨text, -, hscan⟩ := h
  have halias : ∀ d ∈ outline.directives, (name ∈ (d.newName.filter (!·.isEmpty)).toList ++ d.items
      ↔ d.newName = some name ∨ name ∈ d.items) := by
    intro d hd
    have hne := Markup.newName_ne_of_scan hscan hd
    rw [List.mem_append, Option.mem_toList, Option.filter_eq_some_iff]
    refine or_congr_left (and_iff_left_of_imp fun hname => ?_)
    have hname' : name ≠ "" := fun hempty => hne (hempty ▸ hname)
    simpa using hname'
  simp only [ownNames, List.mem_append, List.mem_map, List.mem_flatMap, List.mem_filter, beq_iff_eq,
    Outline.Declares]
  refine or_congr_right ⟨?_, ?_⟩
  · rintro ⟨d, ⟨hd, hkind⟩, hname⟩
    exact ⟨d, hd, hkind, (halias d hd).mp (List.mem_append.mpr hname)⟩
  · rintro ⟨d, hd, hkind, hname⟩
    exact ⟨d, ⟨hd, hkind⟩, List.mem_append.mp ((halias d hd).mpr hname)⟩

/-- The graph and the scans are those of the package. -/
structure IsBuilt (ctx : Context) : Prop where
  graph : ImportGraph.build ⟨ctx.package, ctx.registry, ctx.files.outlines⟩ = .ok ctx.graph
  outlines : ctx.outlines = ctx.files.outlines

namespace IsBuilt

variable (h : IsBuilt ctx)
include h

theorem exploring : ImportGraph.Exploring ⟨ctx.package, ctx.registry, ctx.files.outlines⟩
    ctx.graph.nodes.length ctx.graph.nodes ctx.graph.edges :=
  (ImportGraph.exists_explored h.graph rfl).1

theorem wellFormed : ctx.graph.WellFormed := h.exploring.wellFormed

/-- An entrypoint that is a Typst source is a node. -/
theorem entrypoint_mem_nodes (hentrypoint : ctx.package.entrypoint = some entrypoint) {text : List Char}
    (htext : ctx.files.typstText? entrypoint = some text) : entrypoint ∈ ctx.graph.nodes := by
  obtain ⟨source, hsource, -⟩ := FileSet.exists_source_of_typstText? htext
  have hpath : (source.path == entrypoint) = true := (List.find?_some hsource :)
  have hcontains : ctx.package.files.contains entrypoint = true :=
    List.any_eq_true.mpr ⟨source, List.mem_of_find?_eq_some hsource, hpath⟩
  have hne : entrypoint ≠ "" := by
    rintro rfl
    cases htext
  refine h.exploring.starts entrypoint ?_ hcontains
  simp [Package.entrypoints, hentrypoint, hne]

theorem outlineOf_eq_some_iff :
    outlineOf ctx path = .ok (some outline) ↔ ctx.files.HasOutline path outline := by
  rw [outlineOf, h.outlines, FileSet.lookup_outlines]
  cases htext : ctx.files.typstText? path with
  | none => simp [FileSet.HasOutline, htext]
  | some text => simp [FileSet.HasOutline, htext, map_eq_ok]

/-- What was scanned of a file that is a node, or no Typst source. -/
theorem outlineOf_cases
    (hpath : ∀ text, ctx.files.typstText? path = some text → path ∈ ctx.graph.nodes) :
    (∃ outline, outlineOf ctx path = .ok (some outline) ∧ ctx.files.HasOutline path outline)
      ∨ outlineOf ctx path = .ok none ∧ ∀ outline, ¬ ctx.files.HasOutline path outline := by
  cases htext : ctx.files.typstText? path with
  | none =>
    refine .inr ⟨?_, ?_⟩
    · rw [outlineOf, h.outlines, FileSet.lookup_outlines, htext]
      rfl
    · rintro outline ⟨text, htext', -⟩
      cases htext.symm.trans htext'
  | some text =>
    obtain ⟨outline, houtline⟩ := h.exploring.hasOutline (hpath text htext) htext
    exact .inl ⟨outline, h.outlineOf_eq_some_iff.mpr houtline, houtline⟩

/-- A directive of a file leads where its edge does. -/
theorem relativeTarget_eq_some_iff {d : Directive} : relativeTarget ctx path d = some target
    ↔ ∃ e ∈ ctx.graph.edges, ctx.graph.pathOf e.source = path ∧ e.directive = d
      ∧ ∃ node, e.resolution = .file node ∧ ctx.graph.pathOf node = target := by
  have hfound : ∀ {target'}, relativeTarget ctx path d = some target' →
      ∃ e ∈ ctx.graph.edges, ctx.graph.pathOf e.source = path ∧ e.directive = d
        ∧ ∃ node, e.resolution = .file node ∧ ctx.graph.pathOf node = target' := by
    intro target' htarget
    obtain ⟨e, he, htarget⟩ := List.exists_of_findSome?_eq_some htarget
    obtain ⟨hedge, hsource⟩ := (ImportGraph.mem_edgesFrom h.wellFormed).mp (List.mem_reverse.mp he)
    split at htarget
    · next node hresolution =>
      obtain ⟨hd, hpath⟩ := Option.ite_none_right_eq_some.mp htarget
      exact ⟨e, hedge, hsource, beq_iff_eq.mp hd, node, hresolution, Option.some.inj hpath⟩
    · cases htarget
  refine ⟨hfound, ?_⟩
  rintro ⟨e, he, hsource, rfl, node, hresolution, rfl⟩
  have hsome : (relativeTarget ctx path e.directive).isSome = true := by
    refine List.findSome?_isSome_iff.mpr ⟨e, ?_, ?_⟩
    · exact List.mem_reverse.mpr ((ImportGraph.mem_edgesFrom h.wellFormed).mpr ⟨he, hsource⟩)
    · simp [hresolution]
  obtain ⟨target', htarget⟩ := Option.isSome_iff_exists.mp hsome
  -- the file has one edge for a directive, so the one that is found is `e`
  obtain ⟨e', he', hsource', hdirective, node', hresolution', hpath'⟩ := hfound htarget
  have hsame : e'.source = e.source := by
    have hlt := h.wellFormed.source_lt
    exact ImportGraph.pathOf_inj h.wellFormed (hlt e' he') (hlt e he) (hsource'.trans hsource.symm)
  obtain rfl := h.exploring.edge_eq he' he hsame (by rw [hdirective])
  rw [hresolution, Resolution.file.injEq] at hresolution'
  rw [htarget, ← hpath', hresolution']

theorem mem_wildcardTargets_iff (houtline : ctx.files.HasOutline path outline) :
    target ∈ wildcardTargets ctx path outline ↔ ctx.graph.ImportsAll path target := by
  simp only [wildcardTargets, List.mem_filterMap, List.mem_filter, h.relativeTarget_eq_some_iff,
    Bool.and_eq_true, beq_iff_eq]
  constructor
  · rintro ⟨d, ⟨-, hkind, hwildcard⟩, e, he, hsource, rfl, hnode⟩
    exact ⟨e, he, hsource, hkind, hwildcard, hnode⟩
  · rintro ⟨e, he, rfl, hkind, hwildcard, hnode⟩
    exact ⟨e.directive, ⟨h.exploring.directive_mem he houtline, hkind, hwildcard⟩, e, he, rfl, rfl, hnode⟩

end IsBuilt

/-! ## The walk along wildcard imports -/

/-- What a visit of some files adds to those that were visited: the new ones are reached from these
files, what they import with a wildcard was visited, and the names are those that they declare. -/
structure Visits (ctx : Context) (visited roots new names : List String) : Prop where
  nodup : (new ++ visited).Nodup
  reached : ∀ path ∈ new, ∃ root ∈ roots, ReflTransGen ctx.graph.ImportsAll root path
  roots : ∀ root ∈ roots, ∀ outline, ctx.files.HasOutline root outline → root ∈ new ++ visited
  closed : ∀ path ∈ new, ∀ target outline, ctx.graph.ImportsAll path target →
    ctx.files.HasOutline target outline → target ∈ new ++ visited
  names_iff : ∀ name, name ∈ names ↔ ∃ path ∈ new, ctx.files.Declares path name

variable {visited roots roots' new new' names names' : List String}

theorem Visits.nil (hnodup : visited.Nodup)
    (hroots : ∀ root ∈ roots, ∀ outline, ctx.files.HasOutline root outline → root ∈ visited) :
    Visits ctx visited roots [] [] :=
  ⟨hnodup, by simp, hroots, by simp, by simp⟩

/-- A visit of more files goes on from what was visited. -/
theorem Visits.append (h : Visits ctx visited roots new names)
    (h' : Visits ctx (new ++ visited) roots' new' names') :
    Visits ctx visited (roots ++ roots') (new' ++ new) (names ++ names') where
  nodup := by
    rw [List.append_assoc]
    exact h'.nodup
  reached := by
    refine List.forall_mem_append.mpr ⟨fun path hpath => ?_, fun path hpath => ?_⟩
    · obtain ⟨root, hroot, hreached⟩ := h'.reached path hpath
      exact ⟨root, List.mem_append_right _ hroot, hreached⟩
    · obtain ⟨root, hroot, hreached⟩ := h.reached path hpath
      exact ⟨root, List.mem_append_left _ hroot, hreached⟩
  roots := by
    rw [List.append_assoc]
    refine List.forall_mem_append.mpr ⟨fun root hroot outline houtline => ?_, h'.roots⟩
    exact List.mem_append_right _ (h.roots root hroot outline houtline)
  closed := by
    rw [List.append_assoc]
    refine List.forall_mem_append.mpr ⟨h'.closed, fun path hpath target outline htarget houtline => ?_⟩
    exact List.mem_append_right _ (h.closed path hpath target outline htarget houtline)
  names_iff := by
    intro name
    simp only [List.mem_append, h.names_iff, h'.names_iff, or_and_right, exists_or]
    exact or_comm

/-- A visit of a file enters it, and then visits what it imports with a wildcard. The file counts as
visited from the start, so an import that leads back to it adds nothing. -/
theorem Visits.enter (hctx : IsBuilt ctx) (houtline : ctx.files.HasOutline path outline)
    (h : Visits ctx (path :: visited) (wildcardTargets ctx path outline) new names) :
    Visits ctx visited [path] (new ++ [path]) (ownNames outline ++ names) where
  nodup := by
    rw [List.append_assoc]
    exact h.nodup
  reached := by
    refine List.forall_mem_append.mpr ⟨fun other hother => ?_, by simpa using .refl⟩
    obtain ⟨target, htarget, hreached⟩ := h.reached other hother
    exact ⟨path, List.mem_singleton_self path,
      .head ((hctx.mem_wildcardTargets_iff houtline).mp htarget) hreached⟩
  roots := by simp
  closed := by
    rw [List.append_assoc]
    refine List.forall_mem_append.mpr ⟨h.closed, List.forall_mem_singleton.mpr ?_⟩
    intro target outline' htarget houtline'
    exact h.roots target ((hctx.mem_wildcardTargets_iff houtline).mpr htarget) outline' houtline'
  names_iff := by
    intro name
    have hpath : ctx.files.Declares path name ↔ name ∈ ownNames outline := by
      rw [mem_ownNames_iff houtline]
      constructor
      · rintro ⟨outline', houtline', hname⟩
        exact houtline.unique houtline' ▸ hname
      · intro hname
        exact ⟨outline, houtline, hname⟩
    simp only [List.mem_append, h.names_iff, List.mem_singleton, or_and_right, exists_or,
      exists_eq_left, hpath]
    exact or_comm

/-- What a visit finds of a graph: nodes. -/
theorem Visits.mem_nodes (hctx : IsBuilt ctx) (h : Visits ctx visited roots new names)
    (hroots : ∀ root ∈ roots, root ∈ ctx.graph.nodes) : ∀ path ∈ new, path ∈ ctx.graph.nodes := by
  intro path hpath
  obtain ⟨root, hroot, hreached⟩ := h.reached path hpath
  exact ImportGraph.mem_nodes_of_reached hctx.wellFormed hreached (hroots root hroot)

section run

variable (hctx : IsBuilt ctx) {left : Nat}
include hctx

/-- The visit of one file after the other, if each of them is as it should be. -/
theorem exists_visits_of_each
    (hone : ∀ visited path, visited.Nodup → (∀ p ∈ visited, p ∈ ctx.graph.nodes) →
      path ∈ ctx.graph.nodes → ctx.graph.nodes.length < left + visited.length →
      ∃ new names, (∀ fuel, left ≤ fuel →
          moduleScope ctx fuel visited path = .ok ⟨names, new ++ visited⟩)
        ∧ Visits ctx visited [path] new names)
    {targets : List String} (htargets : ∀ target ∈ targets, target ∈ ctx.graph.nodes) (scope : Scope)
    (hnodup : scope.visited.Nodup) (hvisited : ∀ p ∈ scope.visited, p ∈ ctx.graph.nodes)
    (hleft : ctx.graph.nodes.length < left + scope.visited.length) :
    ∃ new names, (∀ fuel, left ≤ fuel → targets.foldlM (fun scope target => do
          let found ← moduleScope ctx fuel scope.visited target
          return Scope.mk (scope.names ++ found.names) found.visited) scope
        = .ok ⟨scope.names ++ names, new ++ scope.visited⟩)
      ∧ Visits ctx scope.visited targets new names := by
  induction targets generalizing scope with
  | nil => exact ⟨[], [], by simp [pure, Except.pure], .nil hnodup (by simp)⟩
  | cons target targets ih =>
    obtain ⟨htarget, htargets⟩ := List.forall_mem_cons.mp htargets
    obtain ⟨new, names, hscope, hvisits⟩ := hone scope.visited target hnodup hvisited htarget hleft
    have hnew := hvisits.mem_nodes hctx (List.forall_mem_singleton.mpr htarget)
    obtain ⟨new', names', hrest, hvisits'⟩ :=
      ih htargets ⟨scope.names ++ names, new ++ scope.visited⟩ hvisits.nodup
        (List.forall_mem_append.mpr ⟨hnew, hvisited⟩) (by simp only [List.length_append]; omega)
    refine ⟨new' ++ new, names ++ names', fun fuel hfuel => ?_, hvisits.append hvisits'⟩
    rw [List.foldlM_cons, hscope fuel hfuel]
    refine Eq.trans (hrest fuel hfuel) ?_
    simp only [List.append_assoc]

/-- A visit ends, however often imports lead back: it goes deeper only to files that were not visited. -/
theorem exists_visits (hnodup : visited.Nodup) (hvisited : ∀ p ∈ visited, p ∈ ctx.graph.nodes)
    (hpath : path ∈ ctx.graph.nodes) (hleft : ctx.graph.nodes.length < left + visited.length) :
    ∃ new names, (∀ fuel, left ≤ fuel → moduleScope ctx fuel visited path = .ok ⟨names, new ++ visited⟩)
      ∧ Visits ctx visited [path] new names := by
  induction left generalizing visited path with
  | zero =>
    -- no more files were visited than there are nodes
    have hlength := (List.subperm_of_subset hnodup hvisited).length_le
    omega
  | succ left ih =>
    rcases hctx.outlineOf_cases (fun _ _ => hpath) with ⟨outline, hread, houtline⟩ | ⟨hread, hnone⟩
    · by_cases hmem : path ∈ visited
      · refine ⟨[], [], fun fuel hfuel => ?_, .nil hnodup (by simpa using fun _ _ => hmem)⟩
        obtain ⟨fuel, rfl⟩ := Nat.exists_eq_add_of_le' hfuel
        simp [moduleScope, hread, bind, Except.bind, pure, Except.pure, hmem]
      · have htargets : ∀ target ∈ wildcardTargets ctx path outline, target ∈ ctx.graph.nodes := by
          intro target htarget
          exact (((hctx.mem_wildcardTargets_iff houtline).mp htarget).mem_nodes hctx.wellFormed).2
        obtain ⟨new, names, hscope, hvisits⟩ := exists_visits_of_each hctx
          (fun _ _ => ih) htargets ⟨ownNames outline, path :: visited⟩
          (List.nodup_cons.mpr ⟨hmem, hnodup⟩) (List.forall_mem_cons.mpr ⟨hpath, hvisited⟩)
          (by simp only [List.length_cons]; omega)
        refine ⟨new ++ [path], ownNames outline ++ names, fun fuel hfuel => ?_,
          .enter hctx houtline hvisits⟩
        obtain ⟨fuel, rfl⟩ := Nat.exists_eq_add_of_le' hfuel
        simpa [moduleScope, hread, bind, Except.bind, hmem] using hscope (fuel + left) (by omega)
    · refine ⟨[], [], fun fuel hfuel => ?_, .nil hnodup ?_⟩
      · obtain ⟨fuel, rfl⟩ := Nat.exists_eq_add_of_le' hfuel
        simp [moduleScope, hread, bind, Except.bind, pure, Except.pure]
      · simpa using fun outline houtline => absurd houtline (hnone outline)

/-- The visit of the entrypoint, with nothing visited before. -/
theorem exists_visits_entrypoint (hentrypoint : ctx.package.entrypoint = some entrypoint) :
    ∃ new names, (∀ fuel, ctx.graph.nodes.length < fuel →
        moduleScope ctx fuel [] entrypoint = .ok ⟨names, new⟩)
      ∧ Visits ctx [] [entrypoint] new names := by
  by_cases hmem : entrypoint ∈ ctx.graph.nodes
  · have hleft : ctx.graph.nodes.length < ctx.graph.nodes.length + 1 + ([] : List String).length :=
      Nat.lt_succ_self _
    obtain ⟨new, names, hscope, hvisits⟩ := exists_visits hctx List.nodup_nil (by simp) hmem hleft
    rw [List.append_nil] at hscope
    exact ⟨new, names, hscope, hvisits⟩
  · -- there is no such file
    rcases hctx.outlineOf_cases (fun _ => hctx.entrypoint_mem_nodes hentrypoint) with
      ⟨outline, -, text, htext, -⟩ | ⟨hread, hnone⟩
    · exact absurd (hctx.entrypoint_mem_nodes hentrypoint htext) hmem
    · refine ⟨[], [], fun fuel hfuel => ?_, .nil List.nodup_nil ?_⟩
      · obtain ⟨fuel, rfl⟩ := Nat.exists_eq_add_one_of_ne_zero (Nat.ne_zero_of_lt hfuel)
        simp [moduleScope, hread, bind, Except.bind, pure, Except.pure]
      · simpa using hnone

end run

/-- A visit that starts with nothing visited finds all that wildcard imports reach. -/
theorem Visits.mem_iff (hctx : IsBuilt ctx) (h : Visits ctx [] [entrypoint] new names) :
    name ∈ names ↔ ∃ path, ReflTransGen ctx.graph.ImportsAll entrypoint path
      ∧ ctx.files.Declares path name := by
  have hnew : ∀ {path}, ReflTransGen ctx.graph.ImportsAll entrypoint path →
      ∀ outline, ctx.files.HasOutline path outline → path ∈ new := by
    intro path hreached
    induction hreached with
    | refl => simpa using h.roots
    | tail _ hlast ih =>
      intro outline houtline
      obtain ⟨source, hsource⟩ := hctx.exploring.hasOutline_of_importsBy hlast
      simpa using h.closed _ (ih source hsource) _ outline hlast houtline
  rw [h.names_iff]
  constructor
  · rintro ⟨path, hpath, hname⟩
    obtain ⟨root, hroot, hreached⟩ := h.reached path hpath
    obtain rfl := List.mem_singleton.mp hroot
    exact ⟨path, hreached, hname⟩
  · rintro ⟨path, hreached, outline, houtline, hname⟩
    exact ⟨path, hnew hreached outline houtline, outline, houtline, hname⟩

/-- The walk along wildcard imports ends, also where they lead back, and the names that it returns are
those that are declared in the files that they reach from the entrypoint. -/
theorem publicNames_closure (hctx : IsBuilt ctx)
    (hentrypoint : ctx.package.entrypoint = some entrypoint) :
    ∃ scope, (∀ fuel, ctx.graph.nodes.length < fuel → moduleScope ctx fuel [] entrypoint = .ok scope)
      ∧ publicNames ctx entrypoint = .ok scope.names
      ∧ ∀ name, name ∈ scope.names ↔ ∃ path, ReflTransGen ctx.graph.ImportsAll entrypoint path
        ∧ ctx.files.Declares path name := by
  obtain ⟨new, names, hscope, hvisits⟩ := exists_visits_entrypoint hctx hentrypoint
  refine ⟨⟨names, new⟩, hscope, ?_, fun name => hvisits.mem_iff hctx⟩
  rw [publicNames, hscope _ (by omega)]
  rfl

/-- What the rules look at, for the package with some files and for a graph. -/
def contextFor (files : FileSet) (g : ImportGraph) : Context where
  package := ⟨files, (Manifest.load files).manifest, none⟩
  graph := g
  outlines := files.outlines
  manifestProblems := []
  registry := none
  publication := false
  manifestText := none

/-- What can be computed of a package with its graph holds of it. -/
theorem exists_isBuilt (files : FileSet) (p : Context → Prop) [DecidablePred p]
    (h : ((ImportGraph.build ⟨(contextFor files {}).package, none, files.outlines⟩).toOption.any
      fun g => p (contextFor files g)) = true) :
    ∃ g, IsBuilt (contextFor files g) ∧ p (contextFor files g) := by
  obtain ⟨g, hbuild, hp⟩ := (Option.any_eq_true _ _).mp h
  exact ⟨g, ⟨toOption_eq_some_iff.mp hbuild, rfl⟩, of_decide_eq_true hp⟩

/-- The entrypoint and two files import each other with wildcards, and one of them is reached twice. -/
def cyclicFiles : FileSet where
  files :=
    [⟨"a.typ", "#import \"b.typ\": *\n#let from-a = 1\n".toUTF8⟩,
     ⟨"b.typ", "#import \"lib.typ\": *\n#import \"c.typ\" as tools\n#let from-b = 1\n".toUTF8⟩,
     ⟨"c.typ", "#let one = 1\n#let hidden = 2\n".toUTF8⟩,
     ⟨"lib.typ",
      "#import \"a.typ\": *\n#import \"b.typ\": *\n#import \"c.typ\": one\n#let top = 1\n".toUTF8⟩,
     ⟨"typst.toml",
      "[package]\nname = \"demo\"\nversion = \"1.0.0\"\nentrypoint = \"lib.typ\"\n".toUTF8⟩]
  escapedLinks := []
  sorted := by decide

/-- The names of all three files are offered, with those that they import, but for a private name of the
file that no wildcard reaches. -/
theorem publicNames_closure_cycle : ∃ ctx, IsBuilt ctx ∧ ctx.files = cyclicFiles
    ∧ ctx.package.entrypoint = some "lib.typ"
    ∧ ∃ scope : Scope, publicNames ctx "lib.typ" = .ok scope.names
      ∧ scope.names = ["top", "one", "from-a", "from-b", "tools"]
      ∧ ∀ name, name ∈ scope.names ↔ ∃ path, ReflTransGen ctx.graph.ImportsAll "lib.typ" path
        ∧ ctx.files.Declares path name := by
  have hentrypoint : (Manifest.load cyclicFiles).manifest.map (·.package.entrypoint) = some "lib.typ" := by
    decide +kernel
  obtain ⟨g, hctx, hnames⟩ := exists_isBuilt cyclicFiles (fun ctx =>
    (publicNames ctx "lib.typ").toOption = some ["top", "one", "from-a", "from-b", "tools"])
    (by decide +kernel)
  obtain ⟨scope, -, hscope, hiff⟩ := publicNames_closure hctx hentrypoint
  rw [hscope] at hnames
  exact ⟨_, hctx, rfl, hentrypoint, scope, hscope, Option.some.inj hnames, hiff⟩

/-! ## Files that are imported -/

theorem mem_targets_iff (hctx : IsBuilt ctx) : target ∈ ((ctx.graph.edgesFrom path).filterMap fun e =>
      match e.resolution with
      | .file node => if e.directive.kind == .importing then some (ctx.graph.pathOf node) else none
      | _ => none) ↔ ctx.graph.ImportsFile path target := by
  simp only [List.mem_filterMap, ImportGraph.mem_edgesFrom hctx.wellFormed]
  constructor
  · rintro ⟨e, ⟨he, hsource⟩, htarget⟩
    split at htarget
    · next node hresolution =>
      obtain ⟨hkind, hpath⟩ := Option.ite_none_right_eq_some.mp htarget
      exact ⟨e, he, hsource, beq_iff_eq.mp hkind, trivial, node, hresolution, Option.some.inj hpath⟩
    · cases htarget
  · rintro ⟨e, he, hsource, hkind, -, node, hresolution, rfl⟩
    exact ⟨e, ⟨he, hsource⟩, by simp [hresolution, hkind]⟩

/-- The files that were found, of which those before `next` were looked at. -/
structure Follows (ctx : Context) (path : String) (next : Nat) (found : List String) : Prop where
  nodup : found.Nodup
  start : path ∈ found
  reached : ∀ file ∈ found, ReflTransGen ctx.graph.ImportsFile path file
  closed : ∀ file ∈ found.take next, ∀ target, ctx.graph.ImportsFile file target → target ∈ found

theorem Follows.mem_iff {found : List String} (h : Follows ctx path found.length found) :
    target ∈ found ↔ ReflTransGen ctx.graph.ImportsFile path target := by
  refine ⟨h.reached target, fun hreached => ?_⟩
  induction hreached with
  | refl => exact h.start
  | tail _ hlast ih => exact h.closed _ (by rwa [List.take_length]) _ hlast

theorem Follows.step {next : Nat} {found : List String} {file : String}
    (h : Follows ctx path next found) (hfile : found[next]? = some file) {targets : List String}
    (htargets : ∀ target, target ∈ targets ↔ ctx.graph.ImportsFile file target) :
    Follows ctx path (next + 1) (found ++ targets.eraseDups.filter (!found.contains ·)) := by
  have hmem : file ∈ found := List.mem_of_getElem? hfile
  have hlt := (List.getElem?_eq_some_iff.mp hfile).1
  have hnew : ∀ target, target ∈ targets.eraseDups.filter (!found.contains ·)
      ↔ ctx.graph.ImportsFile file target ∧ target ∉ found := by
    intro target
    simp [List.mem_filter, htargets]
  refine ⟨?_, List.mem_append_left _ h.start, ?_, ?_⟩
  · refine List.nodup_append'.mpr ⟨h.nodup, (nodup_eraseDups targets).filter _, ?_⟩
    intro target hfound htarget
    exact ((hnew target).mp htarget).2 hfound
  · refine List.forall_mem_append.mpr ⟨h.reached, fun target htarget => ?_⟩
    exact (h.reached file hmem).tail ((hnew target).mp htarget).1
  · rw [List.take_append_of_le_length hlt, List.take_add_one, hfile]
    refine List.forall_mem_append.mpr ⟨fun other hother target htarget => ?_, ?_⟩
    · exact List.mem_append_left _ (h.closed other hother target htarget)
    · refine List.forall_mem_singleton.mpr fun target htarget => ?_
      by_cases hfound : target ∈ found
      · exact List.mem_append_left _ hfound
      · exact List.mem_append_right _ ((hnew target).mpr ⟨htarget, hfound⟩)

theorem Follows.importedFrom (hctx : IsBuilt ctx) {fuel next : Nat} {found : List String}
    (h : Follows ctx path next found) (hnext : next ≤ found.length) (hpath : path ∈ ctx.graph.nodes)
    (hfuel : ctx.graph.nodes.length < fuel + next) :
    target ∈ importedFrom ctx fuel next found ↔ ReflTransGen ctx.graph.ImportsFile path target := by
  induction fuel generalizing next found with
  | zero =>
    -- no more files were found than there are nodes
    have hnodes : found ⊆ ctx.graph.nodes := fun file hfile =>
      ImportGraph.mem_nodes_of_reached hctx.wellFormed (h.reached file hfile) hpath
    have hlength := (List.subperm_of_subset h.nodup hnodes).length_le
    omega
  | succ fuel ih =>
    unfold Rules.importedFrom
    cases hfile : found[next]? with
    | none =>
      obtain rfl : next = found.length := by
        have hle := List.getElem?_eq_none_iff.mp hfile
        omega
      exact h.mem_iff
    | some file =>
      have hlt := (List.getElem?_eq_some_iff.mp hfile).1
      refine ih (h.step hfile fun target => mem_targets_iff hctx) ?_ (by omega)
      rw [List.length_append]
      omega

theorem mem_importedFiles_iff (hctx : IsBuilt ctx) (hpath : path ∈ ctx.graph.nodes) :
    target ∈ importedFiles ctx path ↔ ReflTransGen ctx.graph.ImportsFile path target := by
  have hstart : Follows ctx path 0 [path] :=
    ⟨List.nodup_singleton path, List.mem_singleton_self path, by simpa using .refl, by simp⟩
  exact hstart.importedFrom hctx (Nat.zero_le _) hpath (Nat.lt_succ_self _)

/-! ## What the rule finds -/

/-- A file binds a name at its top level, and the name does not start with an underscore. -/
def Binds (ctx : Context) (path : String) (b : Binding) : Prop :=
  (∃ outline, ctx.files.HasOutline path outline ∧ b ∈ outline.bindings)
    ∧ b.name.toList.head? ≠ some '_'

/-- A binding is visible to those who import the package: the entrypoint gets it along imports of its
name or of all names. -/
def IsVisible (ctx : Context) (entrypoint path : String) (b : Binding) : Prop :=
  Binds ctx path b ∧ ReflTransGen (ctx.graph.ImportsName b.name) entrypoint path

/-- A name is one of those that the entrypoint offers. -/
def InScope (ctx : Context) (entrypoint name : String) : Prop :=
  ∃ path, ReflTransGen ctx.graph.ImportsAll entrypoint path ∧ ctx.files.Declares path name

/-- A binding has a name that the entrypoint offers, and is in a file that the entrypoint needs. -/
def IsTakenForPublic (ctx : Context) (entrypoint path : String) (b : Binding) : Prop :=
  Binds ctx path b ∧ ReflTransGen ctx.graph.ImportsFile entrypoint path
    ∧ InScope ctx entrypoint b.name

theorem Binds.declares {b : Binding} (h : Binds ctx path b) : ctx.files.Declares path b.name := by
  obtain ⟨⟨outline, houtline, hb⟩, -⟩ := h
  exact ⟨outline, houtline, .inl ⟨b, hb, rfl⟩⟩

/-- The last file on the way that all files before it import with a wildcard declares the name. -/
theorem inScope_of_importsName (hctx : IsBuilt ctx) (hdeclares : ctx.files.Declares path name)
    (h : ReflTransGen (ctx.graph.ImportsName name) entrypoint path) : InScope ctx entrypoint name := by
  induction h using ReflTransGen.head_induction_on with
  | refl => exact ⟨path, .refl, hdeclares⟩
  | head hfirst _ ih =>
    obtain ⟨source, hsource⟩ := hctx.exploring.hasOutline_of_importsBy hfirst
    obtain ⟨e, he, rfl, hkind, hwildcard | hitem, hnode⟩ := hfirst
    · obtain ⟨other, hreached, hname⟩ := ih
      exact ⟨other, .head ⟨e, he, rfl, hkind, hwildcard, hnode⟩ hreached, hname⟩
    · have hd := hctx.exploring.directive_mem he hsource
      exact ⟨_, .refl, source, hsource, .inr ⟨e.directive, hd, hkind, .inr hitem⟩⟩

theorem IsVisible.isTakenForPublic (hctx : IsBuilt ctx) {b : Binding}
    (h : IsVisible ctx entrypoint path b) : IsTakenForPublic ctx entrypoint path b := by
  obtain ⟨hbinds, hreached⟩ := h
  have hfiles : ∀ a c, ctx.graph.ImportsName b.name a c → ctx.graph.ImportsFile a c :=
    fun _ _ => ImportGraph.ImportsBy.imp fun _ _ => trivial
  exact ⟨hbinds, ReflTransGen.mono hfiles _ _ hreached, inScope_of_importsName hctx hbinds.declares hreached⟩

/-- If a binding that is not visible is taken for public, then another file gives its name to the
entrypoint. -/
theorem IsTakenForPublic.isVisible_or {b : Binding} (h : IsTakenForPublic ctx entrypoint path b) :
    IsVisible ctx entrypoint path b
      ∨ ∃ other, other ≠ path ∧ ReflTransGen ctx.graph.ImportsAll entrypoint other
        ∧ ctx.files.Declares other b.name := by
  obtain ⟨hbinds, -, other, hreached, hname⟩ := h
  by_cases hother : other = path
  · subst hother
    have hname : ∀ a c, ctx.graph.ImportsAll a c → ctx.graph.ImportsName b.name a c :=
      fun _ _ => ImportGraph.ImportsBy.imp fun _ => .inl
    exact .inl ⟨hbinds, ReflTransGen.mono hname _ _ hreached⟩
  · exact .inr ⟨other, hother, hreached, hname⟩

theorem exists_fileWarnings (hctx : IsBuilt ctx) (names : List String) (hpath : path ∈ ctx.graph.nodes) :
    ∃ ds, fileWarnings ctx names path = .ok ds ∧ ∀ d, d ∈ ds ↔
      ∃ b, Binds ctx path b ∧ b.name ∈ names ∧ d ∈ bindingWarnings path b := by
  unfold fileWarnings
  rcases hctx.outlineOf_cases (fun _ _ => hpath) with ⟨outline, hread, houtline⟩ | ⟨hread, hnone⟩
  · rw [hread]
    refine ⟨_, rfl, fun d => ?_⟩
    simp only [List.mem_flatMap, List.mem_filter, Bool.and_eq_true, List.contains_iff_mem, bne_iff_ne]
    constructor
    · rintro ⟨b, ⟨hb, hname, hhead⟩, hd⟩
      exact ⟨b, ⟨⟨outline, houtline, hb⟩, hhead⟩, hname, hd⟩
    · rintro ⟨b, ⟨⟨outline', houtline', hb⟩, hhead⟩, hname, hd⟩
      obtain rfl := houtline.unique houtline'
      exact ⟨b, ⟨hb, hname, hhead⟩, hd⟩
  · rw [hread]
    refine ⟨[], rfl, fun d => ?_⟩
    simp only [List.not_mem_nil, false_iff]
    rintro ⟨b, ⟨⟨outline, houtline, -⟩, -⟩, -⟩
    exact hnone outline houtline

/-- The warnings about several files are those about each of them. -/
theorem exists_mapM_fileWarnings (hctx : IsBuilt ctx) (names : List String) {files : List String}
    (hfiles : ∀ path ∈ files, path ∈ ctx.graph.nodes) :
    ∃ dss, files.mapM (fileWarnings ctx names) = .ok dss ∧ ∀ d, d ∈ dss.flatten ↔
      ∃ path ∈ files, ∃ b, Binds ctx path b ∧ b.name ∈ names ∧ d ∈ bindingWarnings path b := by
  cases hfound : files.mapM (fileWarnings ctx names) with
  | error fault =>
    obtain ⟨path, hpath, hfails⟩ := exists_error_of_mapM hfound
    obtain ⟨ds, hds, -⟩ := exists_fileWarnings hctx names (hfiles path hpath)
    cases hds.symm.trans hfails
  | ok dss =>
    refine ⟨dss, rfl, fun d => ?_⟩
    rw [List.mem_flatten]
    constructor
    · rintro ⟨ds, hds, hd⟩
      obtain ⟨path, hpath, hwarnings⟩ := exists_of_mem_mapM hfound hds
      obtain ⟨ds', hwarnings', hiff⟩ := exists_fileWarnings hctx names (hfiles path hpath)
      obtain rfl := Except.ok.inj (hwarnings.symm.trans hwarnings')
      exact ⟨path, hpath, (hiff d).mp hd⟩
    · rintro ⟨path, hpath, hd⟩
      obtain ⟨ds, hds, hwarnings⟩ := mem_of_mapM hfound hpath
      obtain ⟨ds', hwarnings', hiff⟩ := exists_fileWarnings hctx names (hfiles path hpath)
      obtain rfl := Except.ok.inj (hwarnings.symm.trans hwarnings')
      exact ⟨ds, hds, (hiff d).mpr hd⟩

/-- Without a file for the entrypoint, nothing is taken for public. -/
theorem IsTakenForPublic.mem_nodes (hctx : IsBuilt ctx)
    (hentrypoint : ctx.package.entrypoint = some entrypoint) {b : Binding}
    (h : IsTakenForPublic ctx entrypoint path b) : entrypoint ∈ ctx.graph.nodes := by
  obtain ⟨⟨⟨outline, ⟨text, htext, -⟩, -⟩, -⟩, hreached, -⟩ := h
  rcases hreached.cases_head with rfl | ⟨_, hfirst, -⟩
  · exact hctx.entrypoint_mem_nodes hentrypoint htext
  · exact (hfirst.mem_nodes hctx.wellFormed).1

theorem mem_kebabCase_iff (hctx : IsBuilt ctx) (hentrypoint : ctx.package.entrypoint = some entrypoint) :
    ∃ ds, kebabCase.evaluate ctx = .ok ds
      ∧ ∀ d, d ∈ ds ↔ ∃ path b, IsTakenForPublic ctx entrypoint path b ∧ d ∈ bindingWarnings path b := by
  by_cases hmem : entrypoint ∈ ctx.graph.nodes
  · obtain ⟨new, names, hscope, hvisits⟩ := exists_visits_entrypoint hctx hentrypoint
    have hnames : publicNames ctx entrypoint = .ok names := by
      rw [publicNames, hscope _ (by omega)]
      rfl
    have hfiles : ∀ path ∈ importedFiles ctx entrypoint, path ∈ ctx.graph.nodes := by
      intro path hpath
      have hreached := (mem_importedFiles_iff hctx hmem).mp hpath
      exact ImportGraph.mem_nodes_of_reached hctx.wellFormed hreached hmem
    have hfilter : ctx.package.entrypoint.filter ctx.graph.nodes.contains = some entrypoint := by
      rw [hentrypoint, Option.filter_some, if_pos (List.contains_iff_mem.mpr hmem)]
    obtain ⟨dss, hdss, hiff⟩ := exists_mapM_fileWarnings hctx names hfiles
    refine ⟨dss.flatten, ?_, fun d => (hiff d).trans ⟨?_, ?_⟩⟩
    · simp only [kebabCase, hfilter, hnames, bind, Except.bind, hdss]
      rfl
    · rintro ⟨path, hpath, b, hbinds, hname, hd⟩
      have hreached := (mem_importedFiles_iff hctx hmem).mp hpath
      exact ⟨path, b, ⟨hbinds, hreached, (hvisits.mem_iff hctx).mp hname⟩, hd⟩
    · rintro ⟨path, b, ⟨hbinds, hreached, hname⟩, hd⟩
      have hpath := (mem_importedFiles_iff hctx hmem).mpr hreached
      exact ⟨path, hpath, b, hbinds, (hvisits.mem_iff hctx).mpr hname, hd⟩
  · refine ⟨[], ?_, fun d => ?_⟩
    · have hfilter : ctx.package.entrypoint.filter ctx.graph.nodes.contains = none := by
        rw [hentrypoint, Option.filter_some, if_neg (by simpa using hmem)]
      simp only [kebabCase, hfilter]
    · simp only [List.not_mem_nil, false_iff]
      rintro ⟨path, b, hpublic, -⟩
      exact hmem (hpublic.mem_nodes hctx hentrypoint)

/-- The rule warns about all bindings that are visible, and about those that only share their name with
something that another file offers. -/
theorem kebabCase_finds (hctx : IsBuilt ctx) (hentrypoint : ctx.package.entrypoint = some entrypoint) :
    ∃ ds, kebabCase.evaluate ctx = .ok ds
      ∧ (∀ d, d ∈ ds ↔ ∃ path b, IsTakenForPublic ctx entrypoint path b ∧ d ∈ bindingWarnings path b)
      ∧ (∀ path b, IsVisible ctx entrypoint path b → IsTakenForPublic ctx entrypoint path b)
      ∧ ∀ path b, IsTakenForPublic ctx entrypoint path b → IsVisible ctx entrypoint path b
        ∨ ∃ other, other ≠ path ∧ ReflTransGen ctx.graph.ImportsAll entrypoint other
          ∧ ctx.files.Declares other b.name := by
  obtain ⟨ds, hds, hiff⟩ := mem_kebabCase_iff hctx hentrypoint
  exact ⟨ds, hds, hiff, fun _ _ => IsVisible.isTakenForPublic hctx, fun _ _ => IsTakenForPublic.isVisible_or⟩

/-- The entrypoint imports a name from one file, and another name from a file with a private binding that
is called like the first one. -/
def privateFiles : FileSet where
  files :=
    [⟨"a.typ", "#let shown_name = 1\n".toUTF8⟩,
     ⟨"b.typ", "#let other = 1\n#let shown_name = 2\n".toUTF8⟩,
     ⟨"lib.typ", "#import \"a.typ\": shown_name\n#import \"b.typ\": other\n".toUTF8⟩,
     ⟨"typst.toml",
      "[package]\nname = \"demo\"\nversion = \"1.0.0\"\nentrypoint = \"lib.typ\"\n".toUTF8⟩]
  escapedLinks := []
  sorted := by decide

theorem entrypoint_privateFiles :
    (Manifest.load privateFiles).manifest.map (·.package.entrypoint) = some "lib.typ" := by
  decide +kernel

/-- Of the two bindings with one name, the rule finds both. -/
theorem kebabCase_finds_private : ∃ ctx, IsBuilt ctx ∧ ctx.files = privateFiles
    ∧ ctx.package.entrypoint = some "lib.typ"
    ∧ ∃ ds, kebabCase.evaluate ctx = .ok ds ∧ ds.map (·.file) = [some "a.typ", some "b.typ"]
      ∧ ∀ d, d ∈ ds ↔ ∃ path b, IsTakenForPublic ctx "lib.typ" path b ∧ d ∈ bindingWarnings path b := by
  obtain ⟨g, hctx, hfiles⟩ := exists_isBuilt privateFiles (fun ctx =>
    (kebabCase.evaluate ctx).toOption.map (·.map (·.file)) = some [some "a.typ", some "b.typ"])
    (by decide +kernel)
  obtain ⟨ds, hds, hiff, -, -⟩ := kebabCase_finds hctx entrypoint_privateFiles
  rw [hds] at hfiles
  exact ⟨_, hctx, rfl, entrypoint_privateFiles, ds, hds, Option.some.inj hfiles, hiff⟩

/-- The private binding. -/
def privateBinding : Binding := ⟨"shown_name", .ofLength 20 10, [], false⟩

/-- The warning about it. -/
def privateWarning : Diagnostic :=
  nameWarning "b.typ" "`shown_name` seems to be public. It is recommended to use kebab-case names."
    (.ofLength 20 10)

/-- What can be computed of the scan of a file holds of it. -/
theorem exists_hasOutline (files : FileSet) (path : String) (p : Outline → Prop) [DecidablePred p]
    (h : ((files.typstText? path).bind fun text => (Markup.scan text).toOption).any (p ·) = true) :
    ∃ outline, files.HasOutline path outline ∧ p outline := by
  obtain ⟨outline, hscanned, hp⟩ := (Option.any_eq_true _ _).mp h
  obtain ⟨text, htext, hscan⟩ := Option.bind_eq_some_iff.mp hscanned
  exact ⟨outline, ⟨text, htext, toOption_eq_some_iff.mp hscan⟩, of_decide_eq_true hp⟩

/-- The rule finds a binding that is not visible. -/
theorem kebabCase_finds_invisible : ∃ ctx, IsBuilt ctx ∧ ctx.package.entrypoint = some "lib.typ"
    ∧ (∃ ds, kebabCase.evaluate ctx = .ok ds ∧ privateWarning ∈ ds)
    ∧ Binds ctx "b.typ" privateBinding ∧ privateWarning ∈ bindingWarnings "b.typ" privateBinding
    ∧ ¬ IsVisible ctx "lib.typ" "b.typ" privateBinding := by
  obtain ⟨g, hctx, hfound, hedges⟩ := exists_isBuilt privateFiles (fun ctx =>
    (kebabCase.evaluate ctx).toOption.any (privateWarning ∈ ·) = true
      ∧ ∀ e ∈ ctx.graph.edges, e.target?.map ctx.graph.pathOf = some "b.typ" →
        ¬ (e.directive.wildcard = true ∨ "shown_name" ∈ e.directive.items)) (by decide +kernel)
  obtain ⟨ds, hds, hwarning⟩ := (Option.any_eq_true _ _).mp hfound
  obtain ⟨outline, houtline, hbinding⟩ :=
    exists_hasOutline privateFiles "b.typ" (privateBinding ∈ ·.bindings) (by decide +kernel)
  have hevaluate := toOption_eq_some_iff.mp hds
  refine ⟨_, hctx, entrypoint_privateFiles, ⟨ds, hevaluate, of_decide_eq_true hwarning⟩,
    ⟨⟨outline, houtline, hbinding⟩, by decide⟩, by decide +kernel, ?_⟩
  -- no file imports the name from the last one, and the entrypoint is another file
  rintro ⟨-, hreached⟩
  rcases hreached.cases_tail with hsame | ⟨path, -, e, he, -, -, hname, node, hresolution, hpath⟩
  · exact absurd hsame (by decide)
  · refine hedges e he ?_ hname
    rw [Edge.target?, hresolution, ← hpath]
    rfl

end Rules

end TypstLint
