import Mathlib.Data.List.Perm.Subperm
import TypstLint.Proofs.Distinct
import TypstLint.Proofs.ImportGraph.Settles
import TypstLint.Proofs.Package.FileSet

set_option autoImplicit false

/-! # Visiting the files of a package

The nodes are a queue and the set of what was seen at the same time: those before `next` were visited,
the others wait. `Exploring` says so, and that nothing but files that are reached from the entrypoints
gets in. No file gets in twice, so there are not more nodes than files, and the fuel suffices until all
nodes are visited (`explore_spec`). -/

namespace TypstLint

open Markup (Directive Literal)

/-- A directive of a Typst source whose target is a literal. -/
def FileSet.Brings (fs : FileSet) (source : String) (d : Directive) (lit : Literal) : Prop :=
  ∃ text outline, fs.typstText? source = some text ∧ Markup.scan text = .ok outline
    ∧ d ∈ outline.directives ∧ d.target = some lit

/-- The directives of a file whose targets are literals, in the order of the text. A file that is no
Typst source, or has no text, has none. -/
def FileSet.LiteralDirectives (fs : FileSet) (path : String) (ds : List Directive) : Prop :=
  match fs.typstText? path with
  | none => ds = []
  | some text => ∃ outline, Markup.scan text = .ok outline
      ∧ ds = outline.directives.filter (·.target.isSome)

/-- The files that are reached from the entrypoints of a package: the least set that holds the
entrypoints for which there is a file, and the files to which directives of its members lead. -/
inductive Package.Reached (p : Package) : String → Prop where
  | entrypoint {path : String} (hentrypoint : path ∈ p.entrypoints)
      (hfile : p.files.contains path = true) : p.Reached path
  | step {source path : String} {d : Directive} {lit : Literal} (hsource : p.Reached source)
      (hbrings : p.files.Brings source d lit) (hleads : p.LeadsTo source lit.text path) :
      p.Reached path

theorem Package.Reached.mem_paths {p : Package} {path : String} (h : p.Reached path) :
    path ∈ p.files.paths := by
  cases h with
  | entrypoint _ hfile => exact FileSet.contains_iff.mp hfile
  | step _ _ hleads => exact FileSet.contains_iff.mp hleads.contains

theorem FileSet.LiteralDirectives.brings_iff {fs : FileSet} {path : String} {ds : List Directive}
    (h : fs.LiteralDirectives path ds) {d : Directive} {lit : Literal} :
    fs.Brings path d lit ↔ d ∈ ds ∧ d.target = some lit := by
  unfold FileSet.LiteralDirectives at h
  split at h
  · next hnone =>
    subst h
    constructor
    · rintro ⟨text, _, htext, -⟩
      exact absurd (htext.symm.trans hnone) (by simp)
    · rintro ⟨hd, -⟩
      cases hd
  · next text htext =>
    obtain ⟨outline, hscan, rfl⟩ := h
    constructor
    · rintro ⟨text', outline', htext', hscan', hd, hlit⟩
      obtain rfl := Option.some.inj (htext'.symm.trans htext)
      obtain rfl := Except.ok.inj (hscan'.symm.trans hscan)
      exact ⟨List.mem_filter.mpr ⟨hd, by rw [hlit]; rfl⟩, hlit⟩
    · rintro ⟨hd, hlit⟩
      exact ⟨text, outline, htext, hscan, (List.mem_filter.mp hd).1, hlit⟩

namespace ImportGraph

variable {input : Input} {nodes nodes' : List String} {edges new : List Edge} {source path : String}
  {ds : List Directive} {node next : Nat}

theorem directivesOf_spec (hinput : input.outlines = input.package.files.outlines)
    (h : directivesOf input path = .ok ds) :
    input.package.files.LiteralDirectives path (ds.filter (·.target.isSome)) := by
  unfold directivesOf at h
  rw [hinput, FileSet.lookup_outlines] at h
  unfold FileSet.LiteralDirectives
  cases htext : input.package.files.typstText? path with
  | none =>
    simp only [htext, Option.map_none, Except.ok.injEq] at h
    rw [← h, List.filter_nil]
  | some text =>
    simp only [htext, Option.map_some] at h
    obtain ⟨outline, hscan, rfl⟩ := map_eq_ok.mp h
    exact ⟨outline, hscan, rfl⟩

/-- Why a file keeps the graph from being built: it cannot be scanned, or one of its targets cannot be
resolved. -/
inductive FileFails (input : Input) (source : String) : Fault → Prop where
  | scan {text : List Char} {fault : Fault}
      (htext : input.package.files.typstText? source = some text)
      (hscan : Markup.scan text = .error fault) : FileFails input source fault
  | target {d : Directive} {lit : Literal} {fault : Fault}
      (hbrings : input.package.files.Brings source d lit)
      (hfails : TargetFails input lit.text fault) : FileFails input source fault

theorem directivesOf_fails (hinput : input.outlines = input.package.files.outlines) {fault : Fault}
    (h : directivesOf input path = .error fault) : FileFails input path fault := by
  unfold directivesOf at h
  rw [hinput, FileSet.lookup_outlines] at h
  cases htext : input.package.files.typstText? path with
  | none => simp [htext] at h
  | some text =>
    simp only [htext, Option.map_some] at h
    exact .scan htext (map_eq_error.mp h)

/-! ## The edges of a file -/

/-- What an edge says about the file `source`, for a graph with the given nodes. -/
def IsSettled (input : Input) (nodes : List String) (source : String) (e : Edge) : Prop :=
  ∃ lit, e.directive.target = some lit ∧ Settles input nodes source lit.text e.resolution

theorem IsSettled.mono {e : Edge} (h : IsSettled input nodes source e)
    (hkeeps : nodes <+: nodes') : IsSettled input nodes' source e := by
  obtain ⟨lit, hlit, hsettles⟩ := h
  exact ⟨lit, hlit, hsettles.mono hkeeps⟩

/-- Every directive whose target is a literal gives one edge; only files to which one of them leads are
added. -/
theorem edgesOf_spec (h : edgesOf input node source nodes ds = .ok (nodes', new)) :
    Grown (fun q => ∃ d ∈ ds, ∃ lit, d.target = some lit ∧ input.package.LeadsTo source lit.text q)
        nodes nodes'
      ∧ new.map (·.directive) = ds.filter (·.target.isSome)
      ∧ ∀ e ∈ new, e.source = node ∧ IsSettled input nodes' source e := by
  induction ds generalizing nodes new with
  | nil =>
    simp only [edgesOf, Except.ok.injEq, Prod.mk.injEq] at h
    obtain ⟨rfl, rfl⟩ := h
    exact ⟨.refl, rfl, by simp⟩
  | cons d rest ih =>
    unfold edgesOf at h
    cases htarget : d.target with
    | none =>
      simp only [htarget] at h
      obtain ⟨hgrown, hmap, hedges⟩ := ih h
      refine ⟨hgrown.imp ?_, ?_, hedges⟩
      · rintro q ⟨d', hd', hq⟩
        exact ⟨d', List.mem_cons_of_mem d hd', hq⟩
      · rw [hmap, List.filter_cons_of_neg (by simp [htarget])]
    | some lit =>
      simp only [htarget] at h
      obtain ⟨⟨nodes₁, r⟩, hresolve, h⟩ := bind_eq_ok.mp h
      obtain ⟨⟨nodes₂, es⟩, hrest, h⟩ := bind_eq_ok.mp h
      obtain ⟨rfl, rfl⟩ := Prod.mk.inj (Except.ok.inj h)
      obtain ⟨hgrown, hsettles⟩ := resolveTarget_spec hresolve
      obtain ⟨hgrown', hmap, hedges⟩ := ih hrest
      refine ⟨(hgrown.imp ?_).trans (hgrown'.imp ?_), ?_, ?_⟩
      · intro q hq
        exact ⟨d, List.mem_cons_self, lit, htarget, hq⟩
      · rintro q ⟨d', hd', hq⟩
        exact ⟨d', List.mem_cons_of_mem d hd', hq⟩
      · rw [List.map_cons, hmap, List.filter_cons_of_pos (by simp [htarget])]
      · intro e he
        rcases List.mem_cons.mp he with rfl | he
        · -- the directives behind this one only add nodes, which keeps what it was resolved to
          exact ⟨rfl, lit, htarget, hsettles.mono hgrown'.keeps⟩
        · exact hedges e he

theorem edgesOf_fails {fault : Fault} (h : edgesOf input node source nodes ds = .error fault) :
    ∃ d ∈ ds, ∃ lit, d.target = some lit ∧ TargetFails input lit.text fault := by
  induction ds generalizing nodes with
  | nil => cases h
  | cons d rest ih =>
    have hrest : ∀ {nodes}, edgesOf input node source nodes rest = .error fault →
        ∃ d' ∈ d :: rest, ∃ lit, d'.target = some lit ∧ TargetFails input lit.text fault := by
      intro nodes h
      obtain ⟨d', hd', hfails⟩ := ih h
      exact ⟨d', List.mem_cons_of_mem d hd', hfails⟩
    unfold edgesOf at h
    cases htarget : d.target with
    | none =>
      simp only [htarget] at h
      exact hrest h
    | some lit =>
      simp only [htarget] at h
      rcases bind_eq_error.mp h with h | ⟨⟨nodes₁, r⟩, -, h⟩
      · exact ⟨d, List.mem_cons_self, lit, htarget, resolveTarget_fails h⟩
      · rcases bind_eq_error.mp h with h | ⟨⟨nodes₂, es⟩, -, h⟩
        · exact hrest h
        · cases h

/-! ## The queue -/

/-- The nodes before `next` were visited, and the edges are those of their files, one file after the
other. All nodes are reached from the entrypoints, and none occurs twice. -/
structure Exploring (input : Input) (next : Nat) (nodes : List String) (edges : List Edge) : Prop where
  nodup : nodes.Nodup
  next_le : next ≤ nodes.length
  reached : ∀ path ∈ nodes, input.package.Reached path
  starts : ∀ path ∈ input.package.entrypoints, input.package.files.contains path = true → path ∈ nodes
  source_lt : ∀ e ∈ edges, e.source < next
  grouped : edges = (List.range next).flatMap fun i => edges.filter (·.source == i)
  directives : ∀ i < next, ∀ path, nodes[i]? = some path →
    input.package.files.LiteralDirectives path ((edges.filter (·.source == i)).map (·.directive))
  settled : ∀ e ∈ edges, ∃ path, nodes[e.source]? = some path ∧ IsSettled input nodes path e

theorem Exploring.length_le (h : Exploring input next nodes edges) :
    nodes.length ≤ input.package.files.files.length := by
  have hsubset : nodes ⊆ input.package.files.paths := fun path hpath =>
    (h.reached path hpath).mem_paths
  have hlength := (List.subperm_of_subset h.nodup hsubset).length_le
  rwa [FileSet.paths, List.length_map] at hlength

/-- One visit. -/
theorem Exploring.visit (hinput : input.outlines = input.package.files.outlines)
    (h : Exploring input next nodes edges) (hpath : nodes[next]? = some path)
    (hds : directivesOf input path = .ok ds)
    (hnew : edgesOf input next path nodes ds = .ok (nodes', new)) :
    Exploring input (next + 1) nodes' (edges ++ new) := by
  have hliteral := directivesOf_spec hinput hds
  obtain ⟨hgrown, hmap, hedges⟩ := edgesOf_spec hnew
  obtain ⟨hlt, -⟩ := List.getElem?_eq_some_iff.mp (getElem?_of_keeps hgrown.keeps hpath)
  have hsource : input.package.Reached path := h.reached path (List.mem_of_getElem? hpath)
  -- the edges of the new node are the new ones, and those of the older nodes stay as they were
  have hnone : edges.filter (·.source == next) = [] := by
    rw [List.filter_eq_nil_iff]
    intro e he heq
    exact absurd (beq_iff_eq.mp heq) (Nat.ne_of_lt (h.source_lt e he))
  have hall : new.filter (·.source == next) = new := by
    rw [List.filter_eq_self]
    intro e he
    exact beq_iff_eq.mpr (hedges e he).1
  have hold : ∀ i < next, (edges ++ new).filter (·.source == i) = edges.filter (·.source == i) := by
    intro i hi
    have hnil : new.filter (·.source == i) = [] := by
      rw [List.filter_eq_nil_iff]
      intro e he heq
      exact absurd ((beq_iff_eq.mp heq).symm.trans (hedges e he).1) (Nat.ne_of_lt hi)
    rw [List.filter_append, hnil, List.append_nil]
  have hlast : (edges ++ new).filter (·.source == next) = new := by
    rw [List.filter_append, hnone, hall, List.nil_append]
  refine
    { nodup := hgrown.nodup h.nodup
      next_le := hlt
      reached := ?reached
      starts := fun q hq hfile => hgrown.keeps.subset (h.starts q hq hfile)
      source_lt := ?source_lt
      grouped := ?grouped
      directives := ?directives
      settled := ?settled }
  case reached =>
    intro q hq
    rcases hgrown.mem_or q hq with hq | ⟨d, hd, lit, hlit, hleads⟩
    · exact h.reached q hq
    · have hd' : d ∈ ds.filter (·.target.isSome) := List.mem_filter.mpr ⟨hd, by rw [hlit]; rfl⟩
      exact .step hsource (hliteral.brings_iff.mpr ⟨hd', hlit⟩) hleads
  case source_lt =>
    intro e he
    rcases List.mem_append.mp he with he | he
    · exact Nat.lt_succ_of_lt (h.source_lt e he)
    · rw [(hedges e he).1]
      exact Nat.lt_succ_self next
  case grouped =>
    rw [List.range_succ, List.flatMap_append, List.flatMap_singleton, hlast]
    congr 1
    rw [List.flatMap_congr fun i hi => hold i (List.mem_range.mp hi)]
    exact h.grouped
  case directives =>
    intro i hi q hq
    rcases Nat.lt_succ_iff_lt_or_eq.mp hi with hi | rfl
    · have hi' : i < nodes.length := Nat.lt_of_lt_of_le hi h.next_le
      obtain ⟨more, rfl⟩ := hgrown.keeps
      rw [List.getElem?_append_left hi'] at hq
      rw [hold i hi]
      exact h.directives i hi q hq
    · obtain rfl := Option.some.inj (hq.symm.trans (getElem?_of_keeps hgrown.keeps hpath))
      rw [hlast, hmap]
      exact hliteral
  case settled =>
    intro e he
    rcases List.mem_append.mp he with he | he
    · obtain ⟨q, hq, hsettled⟩ := h.settled e he
      exact ⟨q, getElem?_of_keeps hgrown.keeps hq, hsettled.mono hgrown.keeps⟩
    · obtain ⟨hnext, hsettled⟩ := hedges e he
      exact ⟨path, by rw [hnext]; exact getElem?_of_keeps hgrown.keeps hpath, hsettled⟩

/-- All nodes are visited in the end. -/
theorem explore_spec (hinput : input.outlines = input.package.files.outlines) {fuel : Nat}
    {edges' : List Edge} (h : explore input fuel next nodes edges = .ok (nodes', edges'))
    (hexploring : Exploring input next nodes edges)
    (hfuel : input.package.files.files.length < fuel + next) :
    Exploring input nodes'.length nodes' edges' := by
  induction fuel generalizing next nodes edges with
  | zero =>
    -- there is fuel for more visits than there are files, and so than there are nodes
    have hlength := hexploring.length_le
    have hnext := hexploring.next_le
    omega
  | succ fuel ih =>
    unfold explore at h
    cases hnode : nodes[next]? with
    | none =>
      simp only [hnode, Except.ok.injEq, Prod.mk.injEq] at h
      obtain ⟨rfl, rfl⟩ := h
      have heq : nodes.length = next :=
        Nat.le_antisymm (List.getElem?_eq_none_iff.mp hnode) hexploring.next_le
      rwa [heq]
    | some path =>
      simp only [hnode] at h
      obtain ⟨ds, hds, h⟩ := bind_eq_ok.mp h
      obtain ⟨⟨nodes₁, new⟩, hnew, h⟩ := bind_eq_ok.mp h
      exact ih h (hexploring.visit hinput hnode hds hnew) (by omega)

/-- If the visits fail, then because of a file that is reached. -/
theorem explore_fails (hinput : input.outlines = input.package.files.outlines) {fuel : Nat}
    {fault : Fault} (h : explore input fuel next nodes edges = .error fault)
    (hexploring : Exploring input next nodes edges) :
    ∃ source, input.package.Reached source ∧ FileFails input source fault := by
  induction fuel generalizing next nodes edges with
  | zero => cases h
  | succ fuel ih =>
    unfold explore at h
    cases hnode : nodes[next]? with
    | none => simp [hnode] at h
    | some path =>
      simp only [hnode] at h
      have hreached := hexploring.reached path (List.mem_of_getElem? hnode)
      rcases bind_eq_error.mp h with h | ⟨ds, hds, h⟩
      · exact ⟨path, hreached, directivesOf_fails hinput h⟩
      · rcases bind_eq_error.mp h with h | ⟨⟨nodes₁, new⟩, hnew, h⟩
        · obtain ⟨d, hd, lit, hlit, hfails⟩ := edgesOf_fails h
          have hd' : d ∈ ds.filter (·.target.isSome) := List.mem_filter.mpr ⟨hd, by rw [hlit]; rfl⟩
          have hbrings := (directivesOf_spec hinput hds).brings_iff.mpr ⟨hd', hlit⟩
          exact ⟨path, hreached, .target hbrings hfails⟩
        · exact ih h (hexploring.visit hinput hnode hds hnew)

/-- Before the first visit the nodes are the entrypoints. -/
theorem exploring_start (input : Input) :
    Exploring input 0
      ((input.package.entrypoints.filter input.package.files.contains).eraseDups) [] where
  nodup := nodup_eraseDups _
  next_le := Nat.zero_le _
  reached := by
    intro path hpath
    obtain ⟨hentrypoint, hfile⟩ := List.mem_filter.mp (List.mem_eraseDups.mp hpath)
    exact .entrypoint hentrypoint hfile
  starts := fun path hpath hfile => List.mem_eraseDups.mpr (List.mem_filter.mpr ⟨hpath, hfile⟩)
  source_lt := by simp
  grouped := rfl
  directives := by simp
  settled := by simp

end ImportGraph

end TypstLint
