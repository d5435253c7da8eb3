import TypstLint.Proofs.ImportGraph.Cycles
import TypstLint.Proofs.ImportGraph.Shortest

set_option autoImplicit false

/-! # Which shortest loops are reported

Every cycle is a shortest loop through one of its steps, the one that it was found from. A step that was
part of a cycle already gives no other one, so a cycle through it need not be a shortest one: it can have
been found from a file whose path comes earlier (`exists_shortest_cycle`). -/

namespace TypstLint.ImportGraph

variable {g : ImportGraph} {next : Nat → List Nat} {members : List Nat} {a b : Nat}

/-- A chain of imports that comes back to its first path. It may pass a path more than once. -/
structure IsRound (g : ImportGraph) (path : List String) : Prop where
  closed : ∃ first rest, path = first :: rest ++ [first]
  joined : ∀ step ∈ path.zip (path.drop 1), ∃ e, g.Joins e step.1 step.2

/-- A cycle through a step, than which no chain of imports through the step and back is shorter. -/
structure Cycle.IsShortest (g : ImportGraph) (c : Cycle) (step : String × String) : Prop where
  mem_steps : step ∈ c.steps
  length_le : ∀ path, g.IsRound path → step ∈ path.zip (path.drop 1) → c.path.length ≤ path.length

/-! ## Origins of loops -/

section Origins

variable {found : List (List Nat) × List (Nat × Nat)} {step : Nat × Nat}

/-- The loop that is found from a step. -/
abbrev loopFrom (next : Nat → List Nat) (members : List Nat) (step : Nat × Nat) : List Nat :=
  loopThrough next members step.1 step.2

theorem addLoop_eq (g : ImportGraph) (next : Nat → List Nat) (members : List Nat)
    (found : List (List Nat) × List (Nat × Nat)) (step : Nat × Nat) :
    g.addLoop next members found step = if step ∈ found.2 then found
      else (g.rotated (loopFrom next members step) :: found.1,
        stepsOf (loopFrom next members step) ++ found.2) := by
  simp only [addLoop, List.contains_iff_mem]

/-- No loop that was found is lost. -/
theorem subset_foldl_addLoop (steps : List (Nat × Nat)) :
    found.1 ⊆ (steps.foldl (g.addLoop next members) found).1
      ∧ found.2 ⊆ (steps.foldl (g.addLoop next members) found).2 := by
  induction steps generalizing found with
  | nil => exact ⟨List.Subset.refl _, List.Subset.refl _⟩
  | cons step rest ih =>
    have hstep : found.1 ⊆ (g.addLoop next members found step).1
        ∧ found.2 ⊆ (g.addLoop next members found step).2 := by
      rw [addLoop_eq]
      split
      · exact ⟨List.Subset.refl _, List.Subset.refl _⟩
      · exact ⟨List.subset_cons_self _ _, List.subset_append_right _ _⟩
    exact ⟨List.Subset.trans hstep.1 ih.1, List.Subset.trans hstep.2 ih.2⟩

/-- A step that counts as covered is part of a loop that was found from one of the steps looked at. -/
theorem exists_origin_of_covered (steps : List (Nat × Nat))
    (h : step ∈ (steps.foldl (g.addLoop next members) ([], [])).2) :
    ∃ origin ∈ steps,
      g.rotated (loopFrom next members origin) ∈ (steps.foldl (g.addLoop next members) ([], [])).1
      ∧ step ∈ stepsOf (loopFrom next members origin) := by
  induction steps using List.reverseRecOn with
  | nil => cases h
  | append_singleton steps last ih =>
    rw [List.foldl_append, List.foldl_cons, List.foldl_nil, addLoop_eq] at h ⊢
    split at h
    · next hcovered =>
      obtain ⟨origin, horigin, hloop, hstep⟩ := ih h
      rw [if_pos hcovered]
      exact ⟨origin, List.mem_append_left _ horigin, hloop, hstep⟩
    · next hcovered =>
      rw [if_neg hcovered]
      rcases List.mem_append.mp h with h | h
      · exact ⟨last, List.mem_append_right _ List.mem_cons_self, List.mem_cons_self, h⟩
      · obtain ⟨origin, horigin, hloop, hstep⟩ := ih h
        exact ⟨origin, List.mem_append_left _ horigin, List.mem_cons_of_mem _ hloop, hstep⟩

/-- The steps of a component are looked at in the order of the files. -/
theorem pairwise_stepsWithin (g : ImportGraph) (members : List Nat) :
    (g.stepsWithin members).Pairwise fun s t => g.pathOf s.1 ≤ g.pathOf t.1 := by
  have hsource : ∀ node, ∀ s ∈ (((g.sortedEdges node).filterMap Edge.target?).filter
      members.contains).map (node, ·), s.1 = node := by
    intro node s hs
    obtain ⟨_, -, rfl⟩ := List.mem_map.mp hs
    rfl
  refine List.pairwise_flatMap.mpr ⟨fun node _ => ?_, (pairwise_mergeSort_pathOf members).imp
    fun {a b} hab s hs t ht => ?_⟩
  · refine List.pairwise_of_forall_mem_list fun s hs t ht => ?_
    rw [hsource node s hs, hsource node t ht]
  · rw [hsource a s hs, hsource b t ht]
    exact hab

end Origins

theorem mem_of_mem_stepsOf {loop : List Nat} (h : (a, b) ∈ stepsOf loop) : a ∈ loop ∧ b ∈ loop := by
  rw [stepsOf_eq_zip_rotate] at h
  exact ⟨(List.of_mem_zip h).1, List.mem_rotate.mp (List.of_mem_zip h).2⟩

/-- A loop leaves each of its nodes by one step. -/
theorem IsLoop.target_unique {loop : List Nat} (h : IsLoop next loop) {target target' : Nat}
    (hstep : (a, target) ∈ stepsOf loop) (hstep' : (a, target') ∈ stepsOf loop) : target = target' := by
  have hsources : (stepsOf loop).map Prod.fst = loop :=
    List.map_fst_zip (by rw [List.length_append, List.length_drop, List.length_take]; omega)
  exact (Prod.mk.inj (List.inj_on_of_nodup_map (hsources.symm ▸ h.nodup) hstep hstep' rfl)).2

/-- Every step within a component is part of a loop that was found from the step itself, or from one of
a file that comes before it. -/
theorem exists_origin (hg : g.WellFormed) (hmembers : IsComponent g.successors members)
    (hlt : ∀ v ∈ members, v < g.nodes.length) (hstep : (a, b) ∈ g.stepsWithin members) :
    ∃ origin ∈ g.stepsWithin members,
      g.rotated (loopFrom g.successors members origin) ∈ g.loopsWithin g.successors members
      ∧ (a, b) ∈ stepsOf (loopFrom g.successors members origin)
      ∧ (origin = (a, b) ∨ g.pathOf origin.1 < g.pathOf a) := by
  have hspec : ∀ s ∈ g.stepsWithin members, s.1 ∈ members
      ∧ IsLoop g.successors (loopFrom g.successors members s)
      ∧ s ∈ stepsOf (loopFrom g.successors members s) := by
    intro s hs
    obtain ⟨hsource, htarget, himports⟩ := mem_stepsWithin.mp (show (s.1, s.2) ∈ _ from hs)
    obtain ⟨hloop, hmem, -⟩ := loopThrough_spec hmembers hsource htarget (mem_successors.mpr himports)
    exact ⟨hsource, hloop, hmem⟩
  obtain ⟨before, after, hsplit⟩ := List.append_of_mem hstep
  have hsteps : g.stepsWithin members = (before ++ [(a, b)]) ++ after := by simpa using hsplit
  -- once the step was looked at it is covered, and what covers it then stays
  have hcovered : (a, b) ∈ ((before ++ [(a, b)]).foldl (g.addLoop g.successors members) ([], [])).2 := by
    rw [List.foldl_append, List.foldl_cons, List.foldl_nil, addLoop_eq]
    split
    · assumption
    · exact List.mem_append_left _ (hspec _ hstep).2.2
  obtain ⟨origin, horigin, hloop, hmem⟩ := exists_origin_of_covered _ hcovered
  have hwithin : origin ∈ g.stepsWithin members := hsteps ▸ List.mem_append_left _ horigin
  refine ⟨origin, hwithin, ?_, hmem, ?_⟩
  · rw [loopsWithin, hsteps, List.foldl_append]
    exact (subset_foldl_addLoop after).1 hloop
  · have hle : g.pathOf origin.1 ≤ g.pathOf a := by
      rcases List.mem_append.mp horigin with hbefore | hsame
      · have hpairwise := pairwise_stepsWithin g members
        rw [hsplit, List.pairwise_append] at hpairwise
        exact hpairwise.2.2 origin hbefore (a, b) List.mem_cons_self
      · rw [List.mem_singleton.mp hsame]
    refine (lt_or_eq_of_le hle).symm.imp_left fun heq => ?_
    obtain ⟨hsource, hisLoop, hself⟩ := hspec origin hwithin
    obtain ⟨source, target⟩ := origin
    obtain rfl : source = a := pathOf_inj hg (hlt _ hsource) (hlt _ (hspec _ hstep).1) heq
    rw [hisLoop.target_unique hself hmem]

/-! ## Rounds -/

/-- A loop can be turned so that it starts with any of its steps. -/
theorem exists_rotate_of_mem_stepsOf {loop : List Nat} (h : (a, b) ∈ stepsOf loop) :
    ∃ k rest, loop.rotate k = a :: rest ∧ (rest ++ [a]).head? = some b := by
  obtain ⟨k, hk, hget⟩ := List.mem_iff_getElem.mp h
  have hhead : (stepsOf (loop.rotate k)).head? = some (a, b) := by
    rw [stepsOf_rotate, List.head?_rotate hk, List.getElem?_eq_getElem hk, hget]
  refine ⟨k, ?_⟩
  cases hloop : loop.rotate k with
  | nil =>
    rw [hloop] at hhead
    cases hhead
  | cons c rest =>
    rw [hloop] at hhead
    have hsteps : stepsOf (c :: rest) = (c :: rest).zip (rest ++ [c]) := rfl
    cases hrest : rest ++ [c] with
    | nil => simp at hrest
    | cons d more =>
      rw [hsteps, hrest, List.zip_cons_cons, List.head?_cons] at hhead
      obtain ⟨rfl, rfl⟩ := Prod.mk.inj (Option.some.inj hhead)
      exact ⟨rest, rfl, by rw [hrest, List.head?_cons]⟩

/-- Paths of nodes, as nodes. -/
theorem exists_nodes_of_paths {paths : List String}
    (h : ∀ p ∈ paths, ∃ v, v < g.nodes.length ∧ g.pathOf v = p) :
    ∃ nodes : List Nat, paths = nodes.map g.pathOf ∧ ∀ v ∈ nodes, v < g.nodes.length := by
  induction paths with
  | nil => exact ⟨[], rfl, List.forall_mem_nil _⟩
  | cons p rest ih =>
    obtain ⟨v, hv, rfl⟩ := h p List.mem_cons_self
    obtain ⟨nodes, rfl, hnodes⟩ := ih fun q hq => h q (List.mem_cons_of_mem _ hq)
    exact ⟨v :: nodes, rfl, List.forall_mem_cons.mpr ⟨hv, hnodes⟩⟩

/-- A round is made of the paths of nodes, each of which imports the next one. -/
theorem IsRound.exists_nodes (hg : g.WellFormed) {path : List String} (h : g.IsRound path) :
    ∃ v rest, path = (v :: rest ++ [v]).map g.pathOf ∧ (∀ w ∈ v :: rest, w < g.nodes.length)
      ∧ ∀ step ∈ stepsOf (v :: rest), Leads g.successors step.1 step.2 := by
  obtain ⟨first, more, rfl⟩ := h.closed
  have hjoined := h.joined
  have hnode : ∀ p ∈ first :: more, ∃ v, v < g.nodes.length ∧ g.pathOf v = p := by
    intro p hp
    -- every path is the source of a step
    have hsources : ((first :: more).zip (more ++ [first])).map Prod.fst = first :: more :=
      List.map_fst_zip (by simp)
    rw [zip_drop_closed] at hjoined
    obtain ⟨step, hmem, rfl⟩ := List.mem_map.mp (hsources.symm ▸ hp)
    obtain ⟨e, he, hsource, -⟩ := hjoined step hmem
    exact ⟨e.source, hg.source_lt e he, hsource⟩
  obtain ⟨nodes, hpaths, hlt⟩ := exists_nodes_of_paths hnode
  cases nodes with
  | nil => cases hpaths
  | cons v rest =>
    obtain ⟨rfl, rfl⟩ := List.cons.inj hpaths
    have hpath : g.pathOf v :: rest.map g.pathOf ++ [g.pathOf v] = (v :: rest ++ [v]).map g.pathOf := by
      simp
    refine ⟨v, rest, hpath, hlt, fun step hstep => ?_⟩
    have hmem : (g.pathOf step.1, g.pathOf step.2) ∈ (stepsOf (v :: rest)).map
        (Prod.map g.pathOf g.pathOf) := List.mem_map_of_mem hstep
    rw [← zip_drop_path, ← hpath] at hmem
    obtain ⟨e, hjoins⟩ := hjoined _ hmem
    obtain ⟨hsource, htarget⟩ := mem_of_mem_stepsOf hstep
    exact mem_successors.mpr ⟨e, hjoins.imports hg (hlt _ hsource) (hlt _ htarget)⟩

/-- A round through a step, as the nodes behind the start of the step. -/
theorem IsRound.exists_chain (hg : g.WellFormed) {path : List String} (h : g.IsRound path)
    (ha : a < g.nodes.length) (hb : b < g.nodes.length)
    (hstep : (g.pathOf a, g.pathOf b) ∈ path.zip (path.drop 1)) :
    ∃ rest, path.length = rest.length + 2 ∧ (rest ++ [a]).head? = some b
      ∧ (a :: rest ++ [a]).IsChain (Leads g.successors) := by
  obtain ⟨v, rest, rfl, hlt, hleads⟩ := h.exists_nodes hg
  rw [zip_drop_path] at hstep
  obtain ⟨⟨c, d⟩, hcd, heq⟩ := List.mem_map.mp hstep
  obtain ⟨hc, hd⟩ := mem_of_mem_stepsOf hcd
  obtain ⟨hca, hdb⟩ := Prod.mk.inj heq
  obtain rfl := pathOf_inj hg (hlt c hc) ha hca
  obtain rfl := pathOf_inj hg (hlt d hd) hb hdb
  obtain ⟨k, more, hrotate, hhead⟩ := exists_rotate_of_mem_stepsOf hcd
  have hlength := congrArg List.length hrotate
  rw [List.length_rotate, List.length_cons, List.length_cons] at hlength
  refine ⟨more, by simp [Nat.succ.inj hlength], hhead, ?_⟩
  refine (forall_mem_zip_iff_isChain c c more).mp fun step hmem => hleads step ?_
  have hsteps : stepsOf ((v :: rest).rotate k) = (c :: more).zip (more ++ [c]) := by
    rw [hrotate]
    rfl
  rw [← hsteps, stepsOf_rotate, List.mem_rotate] at hmem
  exact hmem

/-! ## Shortest cycles -/

theorem exists_cycleOf? {loop : List Nat} (h : IsLoop g.successors loop) :
    ∃ c, g.cycleOf? loop = some c := by
  cases loop with
  | nil => exact absurd rfl h.nonempty
  | cons anchor rest =>
    obtain ⟨e, he, -⟩ := cycleOf?_spec h
    exact ⟨_, he⟩

/-- The cycle of the loop that was found from a step is a shortest one through it. -/
theorem isShortest_of_loopFrom (hg : g.WellFormed) (hmembers : members ∈ g.components)
    (hstep : (a, b) ∈ g.stepsWithin members) {c : Cycle}
    (hc : g.cycleOf? (g.rotated (loopFrom g.successors members (a, b))) = some c) :
    c.IsShortest g (g.pathOf a, g.pathOf b)
      ∧ ∀ step ∈ stepsOf (loopFrom g.successors members (a, b)),
        (g.pathOf step.1, g.pathOf step.2) ∈ c.steps := by
  obtain ⟨hcomponents, -, hmem⟩ := components_spec hg
  have hcomponent := hcomponents members hmembers
  have hlt : ∀ v ∈ members, v < g.nodes.length := fun v hv =>
    (hmem v).mp (List.mem_flatten.mpr ⟨members, hmembers, hv⟩)
  obtain ⟨ha, hb, himports⟩ := mem_stepsWithin.mp hstep
  obtain ⟨hloop, hself, -⟩ := loopThrough_spec hcomponent ha hb (mem_successors.mpr himports)
  obtain ⟨k, hrotated, -⟩ := g.rotated_spec hloop.nonempty
  have hlength : (g.rotated (loopFrom g.successors members (a, b))).length
      = (loopFrom g.successors members (a, b)).length := by
    rw [hrotated, List.length_rotate]
  have hsteps : ∀ step ∈ stepsOf (loopFrom g.successors members (a, b)),
      step ∈ stepsOf (g.rotated (loopFrom g.successors members (a, b))) := by
    intro step hstep
    rwa [hrotated, stepsOf_rotate, List.mem_rotate]
  cases hturned : g.rotated (loopFrom g.successors members (a, b)) with
  | nil =>
    rw [hturned] at hc
    cases hc
  | cons anchor rest =>
    rw [hturned] at hc hlength hsteps
    obtain ⟨e, -, rfl⟩ := Option.map_eq_some_iff.mp hc
    have hmem : ∀ step ∈ stepsOf (loopFrom g.successors members (a, b)),
        (g.pathOf step.1, g.pathOf step.2)
          ∈ (⟨(anchor :: rest ++ [anchor]).map g.pathOf, e.directive⟩ : Cycle).steps := by
      intro step hstep
      rw [steps_of_path rfl]
      exact List.mem_map_of_mem (hsteps step hstep)
    refine ⟨⟨hmem (a, b) hself, fun path hround hthrough => ?_⟩, hmem⟩
    obtain ⟨way, hway, hhead, hchain⟩ := hround.exists_chain hg (hlt a ha) (hlt b hb) hthrough
    have hle : (loopFrom g.successors members (a, b)).length ≤ (a :: way).length :=
      length_loopThrough_le hcomponent ha hhead hchain
    simp only [List.length_map, List.length_append, List.length_cons, List.length_nil] at hle hlength ⊢
    omega

/-- Every edge within a component is a step of a cycle that is a shortest loop through the edge, or
through one of a file whose path comes before that of the edge. -/
theorem exists_shortest_cycle (hg : g.WellFormed) {e : Edge} (he : e ∈ g.edges) {t : Nat}
    (ht : e.target? = some t) (hsame : g.SameComponent e.source t) :
    ∃ c ∈ g.cycles, (g.pathOf e.source, g.pathOf t) ∈ c.steps
      ∧ ∃ origin, c.IsShortest g origin
        ∧ (origin = (g.pathOf e.source, g.pathOf t) ∨ origin.1 < g.pathOf e.source) := by
  have himports : g.Imports e.source t := ⟨e, he, rfl, ht⟩
  obtain ⟨hcomponents, -, hmem⟩ := components_spec hg
  obtain ⟨members, hmembers, hsource⟩ := List.mem_flatten.mp ((hmem _).mpr (hg.source_lt e he))
  have hcomponent := hcomponents members hmembers
  have htarget := (sameComponent_iff hcomponent hsource t).mp hsame
  have hlt : ∀ v ∈ members, v < g.nodes.length := fun v hv =>
    (hmem v).mp (List.mem_flatten.mpr ⟨members, hmembers, hv⟩)
  obtain ⟨⟨a, b⟩, horigin, hloop, hstep, hbefore⟩ := exists_origin hg hcomponent hlt
    (mem_stepsWithin.mpr ⟨hsource, htarget, himports⟩)
  have hloops : g.rotated (loopFrom g.successors members (a, b)) ∈ g.loops := by
    rw [loops_eq hg, List.mem_flatMap]
    exact ⟨members, hmembers, List.mem_reverse.mpr hloop⟩
  obtain ⟨_, _, hturned⟩ := isTurnedLoop_of_mem_loops hg hloops
  obtain ⟨c, hcycle⟩ := exists_cycleOf? hturned.isLoop
  obtain ⟨hshortest, hsteps⟩ := isShortest_of_loopFrom hg hmembers horigin hcycle
  refine ⟨_, mem_cycles_of_mem_loops hloops hcycle, hsteps _ hstep, _, hshortest, ?_⟩
  refine hbefore.imp_left fun heq => ?_
  obtain ⟨rfl, rfl⟩ := Prod.mk.inj heq
  rfl

/-- Two files that import each other. The import from `x.typ` to `y.typ` is part of a longer loop, which
is found earlier from `a.typ`, and the import back is part of one that is found from `b.typ`. -/
def crossedLoops : ImportGraph :=
  let directive := fun start : Nat => fun name : String =>
    Markup.Directive.mk .importing (some ⟨name, ⟨start + 8, start + 15⟩⟩) ⟨start, start + 15⟩ [] false none
  { nodes := ["y.typ", "x.typ", "b.typ", "a.typ"]
    edges := [⟨0, directive 0 "x.typ", .file 1⟩, ⟨0, directive 16 "a.typ", .file 3⟩,
      ⟨1, directive 0 "y.typ", .file 0⟩, ⟨1, directive 16 "b.typ", .file 2⟩,
      ⟨2, directive 0 "y.typ", .file 0⟩, ⟨3, directive 0 "x.typ", .file 1⟩]
    entrypoints := [0] }

theorem crossedLoops_wellFormed : crossedLoops.WellFormed := ⟨by decide, by decide, by decide⟩

theorem loops_crossedLoops : crossedLoops.loops = [[3, 1, 0], [2, 0, 1]] := by
  have hcomponents : crossedLoops.components = [[3, 2, 1, 0]] := by decide
  -- files and imports are in order already
  have hmembers : [3, 2, 1, 0].mergeSort (fun a b => decide (crossedLoops.pathOf a ≤ crossedLoops.pathOf b))
      = [3, 2, 1, 0] := List.mergeSort_of_pairwise (by decide)
  have hedges : ∀ node ∈ [3, 2, 1, 0], crossedLoops.sortedEdges node = crossedLoops.outgoing node := by
    have hsorted : ∀ node ∈ [3, 2, 1, 0], (crossedLoops.outgoing node).Pairwise fun a b =>
        decide (a.directive.span.start ≤ b.directive.span.start) = true := by decide
    exact fun node hnode => List.mergeSort_of_pairwise (hsorted node hnode)
  have hsteps : crossedLoops.stepsWithin [3, 2, 1, 0]
      = [3, 2, 1, 0].flatMap fun node => ((crossedLoops.outgoing node).filterMap Edge.target?).filter
          [3, 2, 1, 0].contains |>.map (node, ·) := by
    rw [stepsWithin, hmembers]
    exact List.flatMap_congr fun node hnode => by rw [hedges node hnode]
  simp only [loops, hcomponents, loopsWithin, List.flatMap_cons, List.flatMap_nil, hsteps]
  decide +kernel

theorem exists_edge_crossedLoops : ∃ e ∈ crossedLoops.edges,
    e.source = 1 ∧ e.target? = some 0 ∧ crossedLoops.SameComponent e.source 0 := by
  obtain ⟨e, he, hsource, htarget⟩ : ∃ e ∈ crossedLoops.edges, e.source = 1 ∧ e.target? = some 0 := by
    decide
  have hback : crossedLoops.Imports 0 1 := by
    show ∃ e ∈ crossedLoops.edges, e.source = 0 ∧ e.target? = some 1
    decide
  refine ⟨e, he, hsource, htarget, ?_⟩
  exact hsource ▸ ⟨.single ⟨e, he, hsource, htarget⟩, .single hback⟩

/-- The import from `x.typ` to `y.typ` is part of a cycle that is a shortest one, if not through it. -/
theorem exists_shortest_cycle_crossedLoops : ∃ c ∈ crossedLoops.cycles, ("x.typ", "y.typ") ∈ c.steps
    ∧ ∃ origin, c.IsShortest crossedLoops origin ∧ (origin = ("x.typ", "y.typ") ∨ origin.1 < "x.typ") := by
  obtain ⟨e, he, hsource, htarget, hsame⟩ := exists_edge_crossedLoops
  have hcycle := exists_shortest_cycle crossedLoops_wellFormed he htarget hsame
  rwa [hsource] at hcycle

theorem isRound_crossedLoops : crossedLoops.IsRound ["x.typ", "y.typ", "x.typ"] := by
  refine ⟨⟨"x.typ", ["y.typ"], rfl⟩, fun step hstep => ?_⟩
  have hjoined : ∀ step ∈ [("x.typ", "y.typ"), ("y.typ", "x.typ")], ∃ e ∈ crossedLoops.edges,
      crossedLoops.pathOf e.source = step.1 ∧ ∃ t ∈ e.target?, crossedLoops.pathOf t = step.2 := by
    decide
  obtain ⟨e, he, hsource, t, ht, htarget⟩ := hjoined step hstep
  exact ⟨e, he, hsource, t, ht, htarget⟩

/-- The two files are one component, but they are not reported as a cycle of their own, and no cycle
through the import from the first to the second one is a shortest one. -/
theorem not_isShortest_crossedLoops : crossedLoops.WellFormed
    ∧ (∃ e ∈ crossedLoops.edges, ∃ t, e.target? = some t ∧ crossedLoops.SameComponent e.source t
      ∧ ¬ ∃ c ∈ crossedLoops.cycles,
        c.IsShortest crossedLoops (crossedLoops.pathOf e.source, crossedLoops.pathOf t))
    ∧ crossedLoops.IsRound ["x.typ", "y.typ", "x.typ"]
    ∧ ∀ c ∈ crossedLoops.cycles, c.path ≠ ["x.typ", "y.typ", "x.typ"] := by
  have hlong : ∀ c ∈ crossedLoops.cycles, c.path.length = 4 := by
    intro c hc
    rw [cycles, List.mem_mergeSort, loops_crossedLoops] at hc
    have hall : ∀ c ∈ [[3, 1, 0], [2, 0, 1]].eraseDups.filterMap crossedLoops.cycleOf?,
        c.path.length = 4 := by decide +kernel
    exact hall c hc
  obtain ⟨e, he, hsource, htarget, hsame⟩ := exists_edge_crossedLoops
  refine ⟨crossedLoops_wellFormed, ⟨e, he, 0, htarget, hsame, ?_⟩, isRound_crossedLoops, ?_⟩
  · rintro ⟨c, hc, hshortest⟩
    rw [hsource] at hshortest
    have hle := hshortest.length_le _ isRound_crossedLoops List.mem_cons_self
    rw [hlong c hc] at hle
    exact absurd hle (by decide)
  · intro c hc hpath
    have hlength := hlong c hc
    rw [hpath] at hlength
    cases hlength

end TypstLint.ImportGraph
