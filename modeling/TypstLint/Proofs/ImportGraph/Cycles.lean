import Mathlib.Data.Finset.Dedup
import Mathlib.Data.List.Lex
import TypstLint.Proofs.ImportGraph.LoopSearch

set_option autoImplicit false

/-! # The cycles of a graph

Main statements: every edge within a component is a step of a cycle, so there are no cycles if and only
if no file comes back to itself along imports, and there are not more of them than different steps
(`cycles_cover_components`); every cycle is a simple one that starts at its least path, and the cycles
are in strictly ascending order (`cycles_simple_and_ascending`). -/

namespace TypstLint

open Relation (ReflTransGen TransGen)

/-- The step of an edge within the package. -/
def Edge.step? (e : Edge) : Option (Nat × Nat) := e.target?.map (e.source, ·)

namespace ImportGraph

variable {g : ImportGraph} {members : List Nat}

/-- The steps of a cycle, each from a path to the one behind it. -/
def Cycle.steps (c : Cycle) : List (String × String) := c.path.zip (c.path.drop 1)

/-- Whether an edge of the graph leads from the file at one path to the file at another one. -/
def Joins (g : ImportGraph) (e : Edge) (p q : String) : Prop :=
  e ∈ g.edges ∧ g.pathOf e.source = p ∧ ∃ t, e.target? = some t ∧ g.pathOf t = q

/-- A cycle goes along edges from its least path through different paths back to it. Its directive is
the first one in the text that leads to the second path. -/
structure Cycle.IsSimple (g : ImportGraph) (c : Cycle) : Prop where
  closed : ∃ rest, c.path = c.anchor :: rest ++ [c.anchor]
  nodup : c.path.dropLast.Nodup
  joined : ∀ step ∈ c.steps, ∃ e, g.Joins e step.1 step.2
  anchor_le : ∀ p ∈ c.path, c.anchor ≤ p
  first_directive : ∃ q, c.path[1]? = some q ∧ ∃ e, g.Joins e c.anchor q ∧ e.directive = c.directive
    ∧ ∀ e', g.Joins e' c.anchor q → e.directive.span.start ≤ e'.directive.span.start

/-! ## The cycle of a loop -/

theorem head_step {anchor : Nat} {rest : List Nat} :
    (anchor, rest.headD anchor) ∈ stepsOf (anchor :: rest) := by
  cases rest <;> simp [stepsOf]

/-- Every loop has a cycle. -/
theorem cycleOf?_spec {anchor : Nat} {rest : List Nat}
    (h : IsLoop g.successors (anchor :: rest)) :
    ∃ e, g.cycleOf? (anchor :: rest)
        = some ⟨(anchor :: rest ++ [anchor]).map g.pathOf, e.directive⟩
      ∧ e ∈ g.edges ∧ e.source = anchor ∧ e.target? = some (rest.headD anchor)
      ∧ ∀ e' ∈ g.edges, e'.source = anchor → e'.target? = some (rest.headD anchor) →
        e.directive.span.start ≤ e'.directive.span.start := by
  have hmem : ∀ e, e ∈ (g.outgoing anchor).filter (·.target? == some (rest.headD anchor))
      ↔ (e ∈ g.edges ∧ e.source = anchor) ∧ e.target? = some (rest.headD anchor) := by
    intro e
    rw [List.mem_filter, mem_outgoing, beq_iff_eq]
  obtain ⟨first, hfirst, hsource, htarget⟩ := mem_successors.mp (h.leads _ head_step)
  obtain ⟨e, he⟩ := firstLeast?_isSome
    (fun a b : Edge => decide (a.directive.span.start < b.directive.span.start))
    (List.ne_nil_of_mem ((hmem first).mpr ⟨⟨hfirst, hsource⟩, htarget⟩))
  obtain ⟨hin, hle⟩ := firstLeast?_spec (fun _ _ => decide_eq_true_iff) he
  obtain ⟨⟨hedge, hsource⟩, htarget⟩ := (hmem e).mp hin
  refine ⟨e, by simp only [cycleOf?, he, Option.map_some], hedge, hsource, htarget, ?_⟩
  intro e' hedge' hsource' htarget'
  exact hle e' ((hmem e').mpr ⟨⟨hedge', hsource'⟩, htarget'⟩)

/-- A cycle is reported at an edge out of its anchor. -/
theorem exists_edge_of_mem_cycles {c : Cycle} (h : c ∈ g.cycles) :
    ∃ e ∈ g.edges, c.anchor = g.pathOf e.source ∧ c.directive = e.directive := by
  obtain ⟨loop, -, hcycle⟩ := List.mem_filterMap.mp (List.mem_mergeSort.mp h)
  unfold cycleOf? at hcycle
  split at hcycle
  · cases hcycle
  · next anchor rest =>
    obtain ⟨e, he, rfl⟩ := Option.map_eq_some_iff.mp hcycle
    have hmem := (firstLeast?_spec (fun _ _ => decide_eq_true_iff) he).1
    obtain ⟨hedge, hsource⟩ := mem_outgoing.mp (List.mem_filter.mp hmem).1
    exact ⟨e, hedge, by rw [hsource]; rfl, rfl⟩

/-- In a list that ends as it starts, each element but the last one has one behind it. -/
theorem zip_drop_closed {α : Type} (first : α) (rest : List α) :
    (first :: rest ++ [first]).zip ((first :: rest ++ [first]).drop 1)
      = (first :: rest).zip (rest ++ [first]) := by
  have hzip : (first :: rest ++ [first]).zip (rest ++ [first] ++ [])
      = (first :: rest).zip (rest ++ [first]) ++ [first].zip [] := List.zip_append (by simp)
  simpa using hzip

/-- The steps along the paths of a loop are those of the loop. -/
theorem zip_drop_path (anchor : Nat) (rest : List Nat) :
    ((anchor :: rest ++ [anchor]).map g.pathOf).zip (((anchor :: rest ++ [anchor]).map g.pathOf).drop 1)
      = (stepsOf (anchor :: rest)).map (Prod.map g.pathOf g.pathOf) := by
  rw [← List.map_drop, List.zip_map, zip_drop_closed]
  rfl

/-- The steps of a cycle are those of its loop. -/
theorem steps_of_path {c : Cycle} {anchor : Nat} {rest : List Nat}
    (h : c.path = (anchor :: rest ++ [anchor]).map g.pathOf) :
    c.steps = (stepsOf (anchor :: rest)).map (Prod.map g.pathOf g.pathOf) := by
  rw [Cycle.steps, h, zip_drop_path]

theorem dropLast_path (loop : List Nat) (anchor : Nat) :
    ((loop ++ [anchor]).map g.pathOf).dropLast = loop.map g.pathOf := by
  rw [List.map_append, List.map_singleton, List.dropLast_concat]

/-- A cycle comes from a loop of a component. -/
theorem exists_loop_of_mem_cycles (hg : g.WellFormed) {c : Cycle} (h : c ∈ g.cycles) :
    ∃ anchor rest members, g.cycleOf? (anchor :: rest) = some c ∧ members ∈ g.components
      ∧ IsTurnedLoop g members (anchor :: rest) := by
  rw [cycles, List.mem_mergeSort, List.mem_filterMap] at h
  obtain ⟨loop, hloop, hc⟩ := h
  obtain ⟨members, hmembers, hturned⟩ :=
    isTurnedLoop_of_mem_loops hg (List.mem_eraseDups.mp hloop)
  cases loop with
  | nil => exact absurd rfl hturned.isLoop.nonempty
  | cons anchor rest => exact ⟨anchor, rest, members, hc, hmembers, hturned⟩

theorem mem_cycles_of_mem_loops {loop : List Nat} {c : Cycle} (h : loop ∈ g.loops)
    (hc : g.cycleOf? loop = some c) : c ∈ g.cycles := by
  rw [cycles, List.mem_mergeSort, List.mem_filterMap]
  exact ⟨loop, List.mem_eraseDups.mpr h, hc⟩

/-! ## Completeness -/

/-- Every step within a component is a step of a cycle. -/
theorem exists_cycle_of_imports (hg : g.WellFormed) {a b : Nat} (h : g.Imports a b)
    (hsame : g.SameComponent a b) : ∃ c ∈ g.cycles, (g.pathOf a, g.pathOf b) ∈ c.steps := by
  obtain ⟨loop, hloop, hstep⟩ := exists_loop_of_imports hg h hsame
  obtain ⟨_, _, hturned⟩ := isTurnedLoop_of_mem_loops hg hloop
  cases loop with
  | nil => exact absurd rfl hturned.isLoop.nonempty
  | cons anchor rest =>
    obtain ⟨e, hc, -⟩ := cycleOf?_spec hturned.isLoop
    refine ⟨_, mem_cycles_of_mem_loops hloop hc, ?_⟩
    rw [steps_of_path rfl]
    exact List.mem_map.mpr ⟨(a, b), hstep, rfl⟩

/-- The anchor of a loop comes back to itself. -/
theorem transGen_of_isLoop {anchor : Nat} {rest : List Nat}
    (h : IsLoop g.successors (anchor :: rest)) : TransGen g.Imports anchor anchor := by
  have hchain := (forall_mem_zip_iff_isChain (r := Leads g.successors) anchor anchor rest).mp h.leads
  rw [leads_successors, List.cons_append] at hchain
  cases hrest : rest ++ [anchor] with
  | nil => simp at hrest
  | cons b more =>
    rw [hrest, List.isChain_cons_cons] at hchain
    refine TransGen.head' hchain.1 (List.relationReflTransGen_of_exists_isChain_cons more hchain.2 ?_)
    simp [← hrest]

/-- There are no cycles if and only if no node comes back to itself. -/
theorem cycles_eq_nil_iff (hg : g.WellFormed) :
    g.cycles = [] ↔ ∀ v, ¬ TransGen g.Imports v v := by
  constructor
  · intro hnil v hv
    obtain ⟨w, hvw, hwv⟩ := TransGen.head'_iff.mp hv
    obtain ⟨c, hc, -⟩ := exists_cycle_of_imports hg hvw ⟨.single hvw, hwv⟩
    simp [hnil] at hc
  · intro hacyclic
    refine List.eq_nil_iff_forall_not_mem.mpr fun c hc => ?_
    obtain ⟨anchor, rest, _, -, -, hturned⟩ := exists_loop_of_mem_cycles hg hc
    exact hacyclic anchor (transGen_of_isLoop hturned.isLoop)

/-- There are not more cycles than different steps. -/
theorem length_cycles_le (hg : g.WellFormed) :
    g.cycles.length ≤ (g.edges.filterMap Edge.step?).toFinset.card := by
  -- every loop was found from a step of its own, and every such step is that of an edge
  obtain ⟨steps, hlength, hnodup, himports⟩ := exists_origins hg
  have hloops : g.loops.eraseDups.length ≤ g.loops.length :=
    (List.subperm_of_subset (nodup_eraseDups _) fun _ h => List.mem_eraseDups.mp h).length_le
  calc g.cycles.length
      = (g.loops.eraseDups.filterMap g.cycleOf?).length := by rw [cycles, List.length_mergeSort]
    _ ≤ g.loops.eraseDups.length := List.length_filterMap_le _ _
    _ ≤ steps.length := hlength ▸ hloops
    _ = steps.toFinset.card := (List.toFinset_card_of_nodup hnodup).symm
    _ ≤ (g.edges.filterMap Edge.step?).toFinset.card := by
        refine Finset.card_le_card fun step hstep => ?_
        obtain ⟨e, he, hsource, htarget⟩ := himports step (List.mem_toFinset.mp hstep)
        rw [List.mem_toFinset, List.mem_filterMap]
        exact ⟨e, he, by simp [Edge.step?, htarget, hsource]⟩

/-- Two files that import each other; the second one also imports itself. -/
def mutualImports : ImportGraph :=
  let directive := fun text start : Nat => fun name : String =>
    Markup.Directive.mk .importing (some ⟨name, ⟨text, text + 7⟩⟩) ⟨start, text + 7⟩ [] false none
  { nodes := ["main.typ", "lib.typ"]
    edges := [⟨0, directive 8 0 "lib.typ", .file 1⟩, ⟨1, directive 8 0 "main.typ", .file 0⟩,
      ⟨1, directive 28 20 "lib.typ", .file 1⟩]
    entrypoints := [0] }

theorem mutualImports_wellFormed : mutualImports.WellFormed := ⟨by decide, by decide, by decide⟩

/-- Every edge within a component, also one from a file to itself, is a step of a cycle. So there are no
cycles if and only if imports are acyclic, and there are not more of them than different steps. -/
theorem cycles_cover_components (hg : g.WellFormed) :
    (∀ e ∈ g.edges, ∀ t, e.target? = some t → g.SameComponent e.source t →
      ∃ c ∈ g.cycles, (g.pathOf e.source, g.pathOf t) ∈ c.steps)
    ∧ (g.cycles = [] ↔ ∀ v, ¬ TransGen g.Imports v v)
    ∧ g.cycles.length ≤ (g.edges.filterMap Edge.step?).toFinset.card := by
  refine ⟨fun e he t ht hsame => ?_, cycles_eq_nil_iff hg, length_cycles_le hg⟩
  exact exists_cycle_of_imports hg ⟨e, he, rfl, ht⟩ hsame

/-- The file that imports itself is on a cycle of its own. -/
theorem cycles_cover_self_import : ∃ c ∈ mutualImports.cycles, ("lib.typ", "lib.typ") ∈ c.steps := by
  obtain ⟨hcover, -, -⟩ := cycles_cover_components mutualImports_wellFormed
  obtain ⟨e, he, ht⟩ : ∃ e ∈ mutualImports.edges, e.source = 1 ∧ e.target? = some 1 := by decide
  have hsame : mutualImports.SameComponent e.source 1 := ht.1 ▸ ⟨.refl, .refl⟩
  have hcycle := hcover e he 1 ht.2 hsame
  rwa [ht.1] at hcycle

/-! ## Soundness -/

theorem Joins.imports (hg : g.WellFormed) {e : Edge} {a b : Nat} (ha : a < g.nodes.length)
    (hb : b < g.nodes.length) (h : g.Joins e (g.pathOf a) (g.pathOf b)) :
    e ∈ g.edges ∧ e.source = a ∧ e.target? = some b := by
  obtain ⟨he, hsource, t, ht, htarget⟩ := h
  refine ⟨he, pathOf_inj hg (hg.source_lt e he) ha hsource, ?_⟩
  rw [ht, pathOf_inj hg (hg.target_lt e he t ht) hb htarget]

/-- The cycle of a loop that starts at its least path is a simple one. -/
theorem isSimple_of_isTurnedLoop (hg : g.WellFormed) {anchor : Nat} {rest : List Nat} {c : Cycle}
    (hmembers : members ∈ g.components) (h : IsTurnedLoop g members (anchor :: rest))
    (hc : g.cycleOf? (anchor :: rest) = some c) : c.IsSimple g := by
  have hlt : ∀ v ∈ anchor :: rest, v < g.nodes.length := fun v hv =>
    ((components_spec hg).2.2 v).mp (List.mem_flatten.mpr ⟨members, hmembers, h.mem_members v hv⟩)
  obtain ⟨e, he, hedge, hsource, htarget, hle⟩ := cycleOf?_spec h.isLoop
  obtain rfl := Option.some.inj (hc.symm.trans he)
  have hanchor : Cycle.anchor ⟨(anchor :: rest ++ [anchor]).map g.pathOf, e.directive⟩
      = g.pathOf anchor := rfl
  have hfollowing : rest.headD anchor ∈ anchor :: rest := by cases rest <;> simp
  have hmap : ((anchor :: rest).map g.pathOf).Nodup :=
    h.isLoop.nodup.map_on fun a ha b hb hab => pathOf_inj hg (hlt a ha) (hlt b hb) hab
  refine
    { closed := ⟨rest.map g.pathOf, by rw [hanchor]; simp⟩
      nodup := by rw [dropLast_path]; exact hmap
      joined := ?joined
      anchor_le := ?anchor_le
      first_directive := ?first_directive }
  case joined =>
    intro step hstep
    rw [steps_of_path rfl, List.mem_map] at hstep
    obtain ⟨⟨a, b⟩, hab, rfl⟩ := hstep
    obtain ⟨e', he', hs, ht⟩ := mem_successors.mp (h.isLoop.leads (a, b) hab)
    exact ⟨e', he', by rw [hs]; rfl, b, ht, rfl⟩
  case anchor_le =>
    intro p hp
    rw [hanchor]
    obtain ⟨v, hv, rfl⟩ := List.mem_map.mp hp
    refine h.head_le anchor rfl v ?_
    simp only [List.mem_append, List.mem_cons, List.not_mem_nil, or_false] at hv ⊢
    tauto
  case first_directive =>
    refine ⟨g.pathOf (rest.headD anchor), ?_, e, ?_, rfl, ?_⟩
    · cases rest <;> simp
    · exact ⟨hedge, by rw [hsource, hanchor], _, htarget, rfl⟩
    · intro e' hjoins
      rw [hanchor] at hjoins
      obtain ⟨he', hs, ht⟩ := hjoins.imports hg (hlt anchor List.mem_cons_self) (hlt _ hfollowing)
      exact hle e' he' hs ht

/-- Different loops have different paths. -/
theorem nodup_paths (hg : g.WellFormed) : (g.cycles.map (·.path)).Nodup := by
  rw [cycles, ((List.mergeSort_perm _ _).map _).nodup_iff, List.Nodup, List.pairwise_map,
    List.pairwise_filterMap]
  have hlt : ∀ loop ∈ g.loops.eraseDups, ∀ v ∈ loop, v < g.nodes.length := by
    intro loop hloop v hv
    obtain ⟨members, hmembers, h⟩ := isTurnedLoop_of_mem_loops hg (List.mem_eraseDups.mp hloop)
    exact ((components_spec hg).2.2 v).mp
      (List.mem_flatten.mpr ⟨members, hmembers, h.mem_members v hv⟩)
  have hpath : ∀ loop c, g.cycleOf? loop = some c → c.path.dropLast = loop.map g.pathOf := by
    intro loop c hc
    cases loop with
    | nil => cases hc
    | cons anchor rest =>
      simp only [cycleOf?, Option.map_eq_some_iff] at hc
      obtain ⟨e, -, rfl⟩ := hc
      exact dropLast_path (anchor :: rest) anchor
  refine (nodup_eraseDups g.loops).imp_of_mem fun {a b} ha hb hab c hc c' hc' heq => hab ?_
  have hindex : ∀ loop ∈ g.loops.eraseDups, (loop.map g.pathOf).map g.nodes.idxOf = loop := by
    intro loop hloop
    have hid : ∀ v ∈ loop, (g.nodes.idxOf ∘ g.pathOf) v = v := fun v hv =>
      idxOf_pathOf hg (hlt loop hloop v hv)
    rw [List.map_map, List.map_congr_left hid, List.map_id']
  rw [← hindex a ha, ← hindex b hb, ← hpath a c hc, ← hpath b c' hc', heq]

/-! ## Order -/

theorem comesBefore_iff (xs ys : List String) : comesBefore xs ys = true ↔ xs < ys :=
  List.lex_eq_true_iff_lt

theorem not_comesBefore_iff (xs ys : List String) : (!comesBefore ys xs) = true ↔ xs ≤ ys := by
  rw [Bool.not_eq_true', Bool.eq_false_iff, ne_eq, comesBefore_iff, not_lt]

/-- The paths of cycles ascend. -/
theorem pairwise_path_lt (hg : g.WellFormed) : g.cycles.Pairwise fun a b => a.path < b.path := by
  have hle : g.cycles.Pairwise fun a b => (!comesBefore b.path a.path) = true := by
    refine List.pairwise_mergeSort (fun a b c hab hbc => ?_) (fun a b => ?_) _
    · rw [not_comesBefore_iff] at hab hbc ⊢
      exact le_trans hab hbc
    · rw [Bool.or_eq_true, not_comesBefore_iff, not_comesBefore_iff]
      exact le_total a.path b.path
  have hne : g.cycles.Pairwise fun a b => a.path ≠ b.path := List.pairwise_map.mp (nodup_paths hg)
  refine (hle.and hne).imp fun {a b} h => ?_
  exact lt_of_le_of_ne ((not_comesBefore_iff _ _).mp h.1) h.2

/-- Every cycle is a simple one that starts at its least path, with the first directive of its first
step; no two cycles have one path, and they ascend by anchor and path. -/
theorem cycles_simple_and_ascending (hg : g.WellFormed) :
    (∀ c ∈ g.cycles, c.IsSimple g)
    ∧ (g.cycles.map (·.path)).Nodup
    ∧ g.cycles.Pairwise fun a b => a.anchor < b.anchor ∨ a.anchor = b.anchor ∧ a.path < b.path := by
  have hsimple : ∀ c ∈ g.cycles, c.IsSimple g := by
    intro c hc
    obtain ⟨anchor, rest, members, hcycle, hmembers, hturned⟩ := exists_loop_of_mem_cycles hg hc
    exact isSimple_of_isTurnedLoop hg hmembers hturned hcycle
  refine ⟨hsimple, nodup_paths hg, ?_⟩
  refine (pairwise_path_lt hg).imp_of_mem fun {a b} ha hb hlt => ?_
  obtain ⟨rest, hrest⟩ := (hsimple a ha).closed
  obtain ⟨rest', hrest'⟩ := (hsimple b hb).closed
  have hcons := hlt
  rw [hrest, hrest', List.cons_append, List.cons_append, List.cons_lt_cons_iff] at hcons
  rcases hcons with hanchor | ⟨hanchor, -⟩
  · exact .inl hanchor
  · exact .inr ⟨hanchor, hlt⟩

/-- There are cycles among the two files, and they are simple. -/
theorem cycles_of_mutualImports_simple :
    mutualImports.cycles ≠ [] ∧ ∀ c ∈ mutualImports.cycles, c.IsSimple mutualImports := by
  refine ⟨fun hnil => ?_, (cycles_simple_and_ascending mutualImports_wellFormed).1⟩
  have hself : mutualImports.Imports 1 1 := by
    show ∃ e ∈ mutualImports.edges, e.source = 1 ∧ e.target? = some 1
    decide
  exact (cycles_eq_nil_iff mutualImports_wellFormed).mp hnil 1 (.single hself)

end ImportGraph

end TypstLint
