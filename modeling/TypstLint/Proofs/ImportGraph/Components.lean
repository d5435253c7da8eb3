import TypstLint.Proofs.ImportGraph.Visit

set_option autoImplicit false

/-! # The components of a graph

Main statement: the components that a search finds are strongly connected components, and every node is
in exactly one of them (`components_spec`). They are found in an order in which none leads to a later one
(`componentsOf_ordered`), so they are a condensation of the graph (`isCondensation_components`). -/

namespace TypstLint.ImportGraph

variable {next : Nat → List Nat} {size : Nat}

namespace Search

theorem consistent_start (hnext : ∀ v, size ≤ v → next v = []) :
    Consistent next size [] (start size) := by
  have never : ∀ v k, (start size).markOf v ≠ .entered k := by
    intro v k
    rw [markOf_start]
    split <;> simp
  refine
    { size_eq := by simp [start]
      mem_stack := fun v => ⟨nofun, fun ⟨k, hk⟩ => absurd hk (never v k)⟩
      lt_count := fun v k hk => absurd hk (never v k)
      descending := .nil
      path_entered := by simp
      path_reaches := by simp
      reaches_path := fun y k hk => absurd hk (never y k)
      seen_closed := ?_
      done_closed := ?_
      mem_components := ?_
      components_nodup := .nil
      isComponent := by simp [start]
      ordered := .nil }
  · intro v hv _ w hw
    rw [markOf_start] at hv
    split at hv
    · exact absurd rfl hv
    · rename_i hlt
      simp [hnext v (Nat.le_of_not_lt hlt)] at hw
  · intro v hv w hw
    rw [markOf_start] at hv
    split at hv
    · cases hv
    · rename_i hlt
      simp [hnext v (Nat.le_of_not_lt hlt)] at hw
  · intro v
    rw [markOf_start]
    by_cases hv : v < size <;> simp [start, hv]

/-- Visiting a root leaves nothing on the stack, and meets the root. -/
theorem visitRoot_spec {s : Search} (h : Consistent next size [] s) (root : Nat) :
    Consistent next size [] (visitRoot next size s root) ∧ Grows s (visitRoot next size s root)
      ∧ (visitRoot next size s root).markOf root ≠ .unseen := by
  unfold visitRoot
  by_cases hroot : s.markOf root = .unseen
  · have hcard : s.unseenCount ≤ size + 1 := Nat.le_succ_of_le (h.size_eq ▸ s.unseenCount_le_size)
    have spec := visit_spec h hroot (by simp) hcard
    simpa [hroot] using ⟨spec.consistent, spec.grows, spec.seen⟩
  · simpa [hroot] using ⟨h, Grows.refl s⟩

/-- Visiting roots one after the other meets all of them. -/
theorem foldl_visitRoot_spec {s : Search} (h : Consistent next size [] s) (roots : List Nat) :
    Consistent next size [] (roots.foldl (visitRoot next size) s)
      ∧ Grows s (roots.foldl (visitRoot next size) s)
      ∧ ∀ v ∈ roots, (roots.foldl (visitRoot next size) s).markOf v ≠ .unseen := by
  induction roots generalizing s with
  | nil => exact ⟨h, .refl s, by simp⟩
  | cons root rest ih =>
    obtain ⟨hroot, grows, seen⟩ := visitRoot_spec h root
    obtain ⟨hrest, grows', seen'⟩ := ih hroot
    refine ⟨hrest, grows.trans grows', fun v hv => ?_⟩
    rcases List.mem_cons.mp hv with rfl | hv
    · exact grows'.ne_unseen seen
    · exact seen' v hv

end Search

/-- The search ends with every node in one component. -/
theorem componentsOf_spec (hnext : ∀ v, size ≤ v → next v = []) :
    (∀ c ∈ componentsOf next size, IsComponent next c)
      ∧ (componentsOf next size).flatten.Nodup
      ∧ ∀ v, v ∈ (componentsOf next size).flatten ↔ v < size := by
  obtain ⟨h, -, seen⟩ :=
    Search.foldl_visitRoot_spec (Search.consistent_start hnext) (List.range size)
  have perm : (componentsOf next size).flatten.Perm
      ((List.range size).foldl (visitRoot next size) (Search.start size)).components.flatten :=
    (List.reverse_perm _).flatten
  refine ⟨fun c hc => h.isComponent c (List.mem_reverse.mp hc), ?_, fun v => ?_⟩
  · exact perm.nodup_iff.mpr h.components_nodup
  · rw [perm.mem_iff, h.mem_components]
    refine ⟨And.left, fun hv => ⟨hv, ?_⟩⟩
    -- Without a path there is nothing on the stack, so a node that was met is done.
    match hmark : Search.markOf _ v with
    | .unseen => exact absurd hmark (seen v (List.mem_range.mpr hv))
    | .entered k => simpa using h.reaches_path v k hmark
    | .done => rfl

/-- No component leads to one that was finished after it. -/
theorem componentsOf_ordered (hnext : ∀ v, size ≤ v → next v = []) :
    (componentsOf next size).Pairwise fun earlier later => ∀ a ∈ earlier, ∀ b ∈ next a, b ∉ later := by
  obtain ⟨h, -, -⟩ := Search.foldl_visitRoot_spec (Search.consistent_start hnext) (List.range size)
  exact List.pairwise_reverse.mpr h.ordered

end TypstLint.ImportGraph

/-! ## Well-formed graphs

In a well-formed graph the nodes are different files, and the edges lie between nodes. Then the table
of successors holds all of them, and the components are those of the relation `Imports`. -/

namespace TypstLint.ImportGraph

open Relation (ReflTransGen TransGen)

/-- The nodes of a graph are different files, and its edges lie between them. -/
structure WellFormed (g : ImportGraph) : Prop where
  nodes_nodup : g.nodes.Nodup
  source_lt : ∀ e ∈ g.edges, e.source < g.nodes.length
  target_lt : ∀ e ∈ g.edges, ∀ t ∈ e.target?, t < g.nodes.length

/-- A node imports another one if an edge within the package leads there. -/
def Imports (g : ImportGraph) (a b : Nat) : Prop := ∃ e ∈ g.edges, e.source = a ∧ e.target? = some b

/-- Two nodes lie in one component if each of them reaches the other one along imports. -/
def SameComponent (g : ImportGraph) (a b : Nat) : Prop :=
  ReflTransGen g.Imports a b ∧ ReflTransGen g.Imports b a

variable {g : ImportGraph}

theorem mem_outgoing {node : Nat} {e : Edge} :
    e ∈ g.outgoing node ↔ e ∈ g.edges ∧ e.source = node := by
  simp [outgoing]

theorem mem_successors {a b : Nat} : b ∈ g.successors a ↔ g.Imports a b := by
  simp only [successors, List.mem_filterMap, mem_outgoing, Imports, and_assoc]

theorem leads_successors : Leads g.successors = g.Imports := by
  funext a b
  exact propext mem_successors

theorem Imports.lt_length {a b : Nat} (h : g.Imports a b) (hg : g.WellFormed) :
    a < g.nodes.length ∧ b < g.nodes.length := by
  obtain ⟨e, he, rfl, ht⟩ := h
  exact ⟨hg.source_lt e he, hg.target_lt e he b ht⟩

theorem successors_of_length_le (hg : g.WellFormed) {v : Nat} (hv : g.nodes.length ≤ v) :
    g.successors v = [] := by
  refine List.eq_nil_iff_forall_not_mem.mpr fun w hw => ?_
  exact absurd ((mem_successors.mp hw).lt_length hg).1 (Nat.not_lt_of_le hv)

/-- The table of successors says what the edges say. -/
theorem getD_successorTable (hg : g.WellFormed) :
    (fun v => (g.successorTable[v]?).getD []) = g.successors := by
  funext v
  by_cases hv : v < g.nodes.length
  · simp [successorTable, hv]
  · rw [successors_of_length_le hg (Nat.le_of_not_lt hv)]
    simp [successorTable, hv]

theorem idxOf_pathOf (hg : g.WellFormed) {v : Nat} (hv : v < g.nodes.length) :
    g.nodes.idxOf (g.pathOf v) = v := by
  rw [pathOf, List.getElem?_eq_getElem hv, Option.getD_some, hg.nodes_nodup.idxOf_getElem v hv]

theorem pathOf_inj (hg : g.WellFormed) {a b : Nat} (ha : a < g.nodes.length)
    (hb : b < g.nodes.length) (h : g.pathOf a = g.pathOf b) : a = b := by
  rw [← idxOf_pathOf hg ha, h, idxOf_pathOf hg hb]

theorem index?_eq_some_iff (hg : g.WellFormed) {path : String} {v : Nat} :
    g.index? path = some v ↔ g.nodes[v]? = some path := by
  rw [index?, List.idxOf?_eq_some_iff, List.getElem?_eq_some_iff]
  constructor
  · rintro ⟨hlt, heq, -⟩
    exact ⟨hlt, heq⟩
  · rintro ⟨hlt, heq⟩
    refine ⟨hlt, heq, fun w hw hweq => ?_⟩
    exact absurd (hg.nodes_nodup.getElem_inj_iff.mp (hweq.trans heq.symm)) (Nat.ne_of_lt hw)

/-! ## Components -/

/-- Every component is one of the graph's imports, and every node is in exactly one of them. -/
theorem components_spec (hg : g.WellFormed) :
    (∀ c ∈ g.components, IsComponent g.successors c) ∧ g.components.flatten.Nodup
      ∧ ∀ v, v ∈ g.components.flatten ↔ v < g.nodes.length := by
  have heq : g.components = componentsOf g.successors g.nodes.length := by
    rw [← getD_successorTable hg]
    rfl
  rw [heq]
  exact componentsOf_spec fun v hv => successors_of_length_le hg hv

theorem sameComponent_iff {members : List Nat} (h : IsComponent g.successors members) {a : Nat}
    (ha : a ∈ members) (b : Nat) : g.SameComponent a b ↔ b ∈ members := by
  rw [h.mem_iff a ha, SameComponent, ← leads_successors]

end TypstLint.ImportGraph

/-! ## Components in reverse topological order

The components of a graph hold every node once, two nodes lie in one component if each of them reaches
the other one, and an edge between two components leads to the earlier one
(`isCondensation_components`). Edges have to lead to nodes, but different nodes may have the same
path. -/

namespace TypstLint.ImportGraph

open Relation (ReflTransGen)

variable {g : ImportGraph} {a b : Nat}

/-- Every node is in one of the components; these hold the nodes that reach each other, and none of them
leads to a later one. -/
structure IsCondensation (g : ImportGraph) (components : List (List Nat)) : Prop where
  nonempty : ∀ c ∈ components, c ≠ []
  nodup : components.flatten.Nodup
  mem_flatten : ∀ v, v ∈ components.flatten ↔ v < g.nodes.length
  sameComponent_iff : ∀ c ∈ components, ∀ a ∈ c, ∀ b, g.SameComponent a b ↔ b ∈ c
  target_before : ∀ (i j : Nat) (c d : List Nat), components[i]? = some c → components[j]? = some d →
    i ≠ j → ∀ a ∈ c, ∀ b ∈ d, g.Imports a b → j < i

/-- What the table of successors says of a node. -/
abbrev tableSuccessors (g : ImportGraph) (v : Nat) : List Nat := (g.successorTable[v]?).getD []

theorem tableSuccessors_of_length_le {v : Nat} (hv : g.nodes.length ≤ v) : g.tableSuccessors v = [] := by
  simp [tableSuccessors, successorTable, hv]

theorem mem_tableSuccessors : b ∈ g.tableSuccessors a ↔ a < g.nodes.length ∧ g.Imports a b := by
  by_cases ha : a < g.nodes.length
  · rw [← mem_successors]
    simp [tableSuccessors, successorTable, ha]
  · rw [tableSuccessors_of_length_le (Nat.le_of_not_lt ha)]
    simp [ha]

section Targets

variable (htarget : ∀ e ∈ g.edges, ∀ t ∈ e.target?, t < g.nodes.length)

include htarget

theorem lt_length_of_imports (h : g.Imports a b) : b < g.nodes.length := by
  obtain ⟨e, he, -, ht⟩ := h
  exact htarget e he b ht

theorem lt_length_of_reaches (ha : a < g.nodes.length) (h : ReflTransGen g.Imports a b) :
    b < g.nodes.length := by
  cases h with
  | refl => exact ha
  | tail _ step => exact lt_length_of_imports htarget step

/-- A way that starts at a node is one in the table, too. -/
theorem reaches_tableSuccessors_iff (ha : a < g.nodes.length) :
    Reaches g.tableSuccessors a b ↔ ReflTransGen g.Imports a b := by
  constructor
  · intro h
    exact ReflTransGen.mono (fun v w hw => (mem_tableSuccessors.mp hw).2) a b h
  · intro h
    induction h with
    | refl => exact .refl
    | tail hinit step ih =>
      exact ih.tail (mem_tableSuccessors.mpr ⟨lt_length_of_reaches htarget ha hinit, step⟩)

/-- The components of a graph whose edges lead to nodes are its condensation. -/
theorem isCondensation_components : g.IsCondensation g.components := by
  have hnext : ∀ v, g.nodes.length ≤ v → g.tableSuccessors v = [] :=
    fun _ hv => tableSuccessors_of_length_le hv
  obtain ⟨hcomponent, hnodup, hmem⟩ := componentsOf_spec hnext
  have hordered : g.components.Pairwise fun earlier later =>
      ∀ a ∈ earlier, ∀ b ∈ g.tableSuccessors a, b ∉ later := componentsOf_ordered hnext
  have hlt : ∀ c ∈ g.components, ∀ a ∈ c, a < g.nodes.length := fun c hc a ha =>
    (hmem a).mp (List.mem_flatten.mpr ⟨c, hc, ha⟩)
  refine
    { nonempty := fun c hc => (hcomponent c hc).nonempty
      nodup := hnodup
      mem_flatten := hmem
      sameComponent_iff := ?sameComponent_iff
      target_before := ?target_before }
  case sameComponent_iff =>
    intro c hc a ha b
    have halt := hlt c hc a ha
    rw [(hcomponent c hc).mem_iff a ha, SameComponent, reaches_tableSuccessors_iff htarget halt]
    refine and_congr_right fun hab => ?_
    rw [reaches_tableSuccessors_iff htarget (lt_length_of_reaches htarget halt hab)]
  case target_before =>
    intro i j c d hi hj hne a ha b hb himports
    obtain ⟨hilt, rfl⟩ := List.getElem?_eq_some_iff.mp hi
    obtain ⟨hjlt, rfl⟩ := List.getElem?_eq_some_iff.mp hj
    refine (Nat.lt_or_gt_of_ne hne).resolve_left fun hij => ?_
    have hsuccessor : b ∈ g.tableSuccessors a :=
      mem_tableSuccessors.mpr ⟨hlt _ (List.getElem_mem hilt) a ha, himports⟩
    exact List.pairwise_iff_getElem.mp hordered i j hilt hjlt hij a ha b hsuccessor hb

end Targets

/-- Two files that import each other, of which the second one imports a third one. -/
def importsBehindLoop : ImportGraph :=
  let directive := fun start : Nat =>
    Markup.Directive.mk .importing none ⟨start, start + 7⟩ [] false none
  { nodes := ["main.typ", "lib.typ", "util.typ"]
    edges := [⟨0, directive 0, .file 1⟩, ⟨1, directive 0, .file 0⟩, ⟨1, directive 8, .file 2⟩] }

/-- The third file is imported from the loop, so its component comes first. -/
theorem isCondensation_importsBehindLoop : importsBehindLoop.components = [[2], [1, 0]]
    ∧ importsBehindLoop.IsCondensation importsBehindLoop.components :=
  ⟨by decide, isCondensation_components (by decide)⟩

end TypstLint.ImportGraph
