import TypstLint.Proofs.ImportGraph.Cycles
import TypstLint.Proofs.ImportGraph.Loops

set_option autoImplicit false

/-! # Cycles under any numbering

Two graphs in which the same files import the same files, each in the same order, differ in the numbers
of their nodes alone. Their components hold the same files, the steps within a component are looked at in
the order of the paths, and the loop through a step does not depend on numbers, so the cycles are the
same (`cycles_eq_of_sameImports`). -/

/-! ## Loops under other numbers

The search for a loop does not look at the numbers of nodes. If every node gets another number, and its
successors are the renumbered ones in the same order, the loop through a step is the renumbered one. -/

namespace TypstLint.ImportGraph

variable {σ : Nat → Nat} {next next' : Nat → List Nat} {members members' : List Nat}

/-- A trail under other numbers. -/
def Trail.renamed (σ : Nat → Nat) (trail : Trail) : Trail :=
  trail.map fun entry => (σ entry.1, entry.2.map σ)

section

variable (hσ : Function.Injective σ)

include hσ

theorem Trail.lookup_renamed (trail : Trail) (node : Nat) :
    (trail.renamed σ).lookup (σ node) = (trail.lookup node).map (Option.map σ) := by
  induction trail with
  | nil => rfl
  | cons entry rest ih =>
    rw [renamed, List.map_cons, List.lookup_cons, List.lookup_cons, beq_eq_beq.mpr hσ.eq_iff]
    split
    · rfl
    · exact ih

theorem followTrail_renamed (trail : Trail) (fuel node : Nat) :
    followTrail (trail.renamed σ) fuel (σ node) = (followTrail trail fuel node).map σ := by
  induction fuel generalizing node with
  | zero => rfl
  | succ fuel ih =>
    have hjoin : ((trail.renamed σ).lookup (σ node)).join = (trail.lookup node).join.map σ := by
      rw [trail.lookup_renamed hσ]
      cases trail.lookup node <;> rfl
    rw [followTrail, followTrail, hjoin, List.map_cons]
    cases (trail.lookup node).join with
    | none => rfl
    | some before => exact congrArg (σ node :: ·) (ih before)

theorem searchTrail_renamed (hnext : ∀ v, next' (σ v) = (next v).map σ) (goal fuel : Nat) (trail : Trail)
    (queue : List Nat) :
    searchTrail next' (σ goal) fuel (trail.renamed σ) (queue.map σ)
      = (searchTrail next goal fuel trail queue).renamed σ := by
  induction fuel generalizing trail queue with
  | zero => simp [searchTrail]
  | succ fuel ih =>
    cases queue with
    | nil => simp [searchTrail]
    | cons node queue =>
      rw [List.map_cons, searchTrail, searchTrail, beq_eq_beq.mpr hσ.eq_iff]
      split
      · rfl
      · -- the new nodes are the renumbered ones
        have hnew : ((next' (σ node)).eraseDups).filter (fun child => ((trail.renamed σ).lookup child).isNone)
            = (((next node).eraseDups).filter fun child => (trail.lookup child).isNone).map σ := by
          rw [hnext, eraseDups_map hσ, List.filter_map]
          refine congrArg _ (List.filter_congr fun child _ => ?_)
          rw [Function.comp_apply, trail.lookup_renamed hσ, Option.isNone_map]
        dsimp only
        rw [hnew, ← List.map_append, ← ih]
        simp [Trail.renamed, Function.comp_def]

variable (hnext : ∀ v, next' (σ v) = (next v).map σ) (hmem : ∀ v, σ v ∈ members' ↔ v ∈ members)
  (hlength : members'.length = members.length)

include hnext hmem hlength

theorem shortestPath_renamed (start goal : Nat) :
    shortestPath next' members' (σ start) (σ goal) = (shortestPath next members start goal).map σ := by
  have hinside : ∀ v, inside next' members' (σ v) = (inside next members v).map σ := by
    intro v
    rw [inside, inside, hnext, List.filter_map]
    refine congrArg _ (List.filter_congr fun w _ => ?_)
    rw [Function.comp_apply, Bool.eq_iff_iff, List.contains_iff_mem, List.contains_iff_mem, hmem]
  have hsearch := searchTrail_renamed hσ hinside goal members.length [(start, none)] [start]
  rw [shortestPath_eq, shortestPath_eq, hlength, List.map_reverse, ← followTrail_renamed hσ, ← hsearch]
  rfl

theorem loopThrough_renamed (source target : Nat) :
    loopThrough next' members' (σ source) (σ target) = (loopThrough next members source target).map σ := by
  rw [loopThrough, loopThrough, beq_eq_beq.mpr hσ.eq_iff, shortestPath_renamed hσ hnext hmem hlength]
  split
  · rfl
  · rw [List.map_cons, List.map_dropLast]

end

theorem stepsOf_map (σ : Nat → Nat) (loop : List Nat) :
    stepsOf (loop.map σ) = (stepsOf loop).map (Prod.map σ σ) := by
  rw [stepsOf, ← List.map_drop, ← List.map_take, ← List.map_append, List.zip_map]
  rfl

/-- The first least element of renamed ones is the renamed one. -/
theorem firstLeast?_map {α β : Type} {lt : α → α → Bool} {lt' : β → β → Bool} {f : α → β}
    (h : ∀ a b, lt' (f a) (f b) = lt a b) (l : List α) :
    firstLeast? lt' (l.map f) = (firstLeast? lt l).map f := by
  cases l with
  | nil => rfl
  | cons x rest =>
    simp only [List.map_cons, firstLeast?, Option.map_some, Option.some.injEq]
    induction rest generalizing x with
    | nil => rfl
    | cons y rest ih =>
      rw [List.map_cons, List.foldl_cons, List.foldl_cons, h, ← ih]
      split <;> rfl

end TypstLint.ImportGraph

namespace TypstLint

open Relation (ReflTransGen)

/-- What an edge says without its source: the directive, and the node that it leads to. -/
def Edge.lead (e : Edge) : Markup.Directive × Option Nat := (e.directive, e.target?)

namespace ImportGraph

variable {σ : Nat → Nat} {g g' : ImportGraph} {members members' : List Nat}

/-- The directive of an edge, and the path of the file that it leads to. -/
def import? (g : ImportGraph) (e : Edge) : Markup.Directive × Option String :=
  (e.directive, e.target?.map g.pathOf)

/-- Two graphs with the same files, each of which has the same imports in the same order. -/
structure SameImports (g g' : ImportGraph) : Prop where
  mem_nodes : ∀ path, path ∈ g.nodes ↔ path ∈ g'.nodes
  imports : ∀ path ∈ g.nodes, (g.edgesFrom path).map g.import? = (g'.edgesFrom path).map g'.import?

theorem SameImports.symm (h : SameImports g g') : SameImports g' g :=
  ⟨fun path => (h.mem_nodes path).symm, fun path hpath => (h.imports path ((h.mem_nodes path).mpr hpath)).symm⟩

/-- Other numbers for the nodes of a graph. What is no node keeps its number. -/
structure Renumbers (σ : Nat → Nat) (g g' : ImportGraph) : Prop where
  injective : Function.Injective σ
  lt_iff : ∀ v, σ v < g'.nodes.length ↔ v < g.nodes.length
  exists_of_lt : ∀ w, w < g'.nodes.length → ∃ v, σ v = w
  pathOf_eq : ∀ v, g'.pathOf (σ v) = g.pathOf v
  leads : ∀ v, (g'.outgoing (σ v)).map Edge.lead
    = ((g.outgoing v).map Edge.lead).map (Prod.map id (Option.map σ))

/-! ## Numbers of the same files -/

theorem edgesFrom_pathOf (hg : g.WellFormed) {v : Nat} (hv : v < g.nodes.length) :
    g.edgesFrom (g.pathOf v) = g.outgoing v := by
  have hindex : g.index? (g.pathOf v) = some v := by
    rw [index?_eq_some_iff hg, pathOf, List.getElem?_eq_getElem hv, Option.getD_some]
  rw [edgesFrom, hindex]

theorem pathOf_idxOf {path : String} (h : path ∈ g.nodes) : g.pathOf (g.nodes.idxOf path) = path := by
  rw [pathOf, List.getElem?_eq_getElem (List.idxOf_lt_length_of_mem h), Option.getD_some,
    List.getElem_idxOf]

theorem pathOf_mem {v : Nat} (hv : v < g.nodes.length) : g.pathOf v ∈ g.nodes := by
  rw [pathOf, List.getElem?_eq_getElem hv, Option.getD_some]
  exact List.getElem_mem hv

/-- The edges of a node, with the number of the path that each of them leads to. -/
theorem map_lead_outgoing (hg : g.WellFormed) (v : Nat) (number : String → Nat) (σ : Nat → Nat)
    (hσ : ∀ w, w < g.nodes.length → number (g.pathOf w) = σ w) :
    ((g.outgoing v).map g.import?).map (Prod.map id (Option.map number))
      = ((g.outgoing v).map Edge.lead).map (Prod.map id (Option.map σ)) := by
  rw [List.map_map, List.map_map]
  refine List.map_congr_left fun e he => ?_
  have htarget : (e.target?.map g.pathOf).map number = e.target?.map σ := by
    cases ht : e.target? with
    | none => rfl
    | some t => exact congrArg some (hσ t (hg.target_lt e (mem_outgoing.mp he).1 t ht))
  exact congrArg (Prod.mk e.directive) htarget

/-- The number that the other graph has for the path of a node. -/
def numberIn (g g' : ImportGraph) (v : Nat) : Nat :=
  if v < g.nodes.length then g'.nodes.idxOf (g.pathOf v) else v

theorem numberIn_of_lt {v : Nat} (hv : v < g.nodes.length) :
    numberIn g g' v = g'.nodes.idxOf (g.pathOf v) := if_pos hv

theorem numberIn_of_not_lt (g' : ImportGraph) {v : Nat} (hv : ¬ v < g.nodes.length) :
    numberIn g g' v = v := if_neg hv

theorem outgoing_eq_nil (hg : g.WellFormed) {v : Nat} (hv : ¬ v < g.nodes.length) :
    g.outgoing v = [] :=
  List.eq_nil_iff_forall_not_mem.mpr fun e he =>
    hv ((mem_outgoing.mp he).2 ▸ hg.source_lt e (mem_outgoing.mp he).1)

section

variable (hg : g.WellFormed) (hg' : g'.WellFormed) (h : SameImports g g')
include hg hg' h

theorem SameImports.length_eq : g'.nodes.length = g.nodes.length :=
  ((List.perm_ext_iff_of_nodup hg'.nodes_nodup hg.nodes_nodup).mpr fun p =>
    (h.mem_nodes p).symm).length_eq

theorem SameImports.numberIn_lt_iff (v : Nat) :
    numberIn g g' v < g'.nodes.length ↔ v < g.nodes.length := by
  by_cases hv : v < g.nodes.length
  · rw [numberIn_of_lt hv]
    exact iff_of_true (List.idxOf_lt_length_of_mem ((h.mem_nodes _).mp (pathOf_mem hv))) hv
  · rw [numberIn_of_not_lt g' hv, h.length_eq hg hg']

theorem SameImports.pathOf_numberIn (v : Nat) : g'.pathOf (numberIn g g' v) = g.pathOf v := by
  by_cases hv : v < g.nodes.length
  · rw [numberIn_of_lt hv, pathOf_idxOf ((h.mem_nodes _).mp (pathOf_mem hv))]
  · have hv' : ¬ v < g'.nodes.length := by rwa [h.length_eq hg hg']
    rw [numberIn_of_not_lt g' hv, pathOf, pathOf, List.getElem?_eq_none (Nat.le_of_not_lt hv),
      List.getElem?_eq_none (Nat.le_of_not_lt hv')]

theorem SameImports.injective_numberIn : Function.Injective (numberIn g g') := by
  intro a b hab
  have hlt := h.numberIn_lt_iff hg hg'
  by_cases ha : a < g.nodes.length
  · have hb : b < g.nodes.length := (hlt b).mp (hab ▸ (hlt a).mpr ha)
    have hpath := h.pathOf_numberIn hg hg'
    exact pathOf_inj hg ha hb (by rw [← hpath a, hab, hpath b])
  · have hb : ¬ b < g.nodes.length := fun hb => ha ((hlt a).mp (hab ▸ (hlt b).mpr hb))
    rw [← numberIn_of_not_lt g' ha, hab, numberIn_of_not_lt g' hb]

theorem SameImports.leads_numberIn (v : Nat) : (g'.outgoing (numberIn g g' v)).map Edge.lead
    = ((g.outgoing v).map Edge.lead).map (Prod.map id (Option.map (numberIn g g'))) := by
  have hlt := h.numberIn_lt_iff hg hg' v
  by_cases hv : v < g.nodes.length
  · have himports := h.imports _ (pathOf_mem hv)
    rw [edgesFrom_pathOf hg hv, ← h.pathOf_numberIn hg hg', edgesFrom_pathOf hg' (hlt.mpr hv)] at himports
    -- the paths that the edges lead to have numbers in the other graph
    have hself := map_lead_outgoing hg' (numberIn g g' v) g'.nodes.idxOf id fun w hw => idxOf_pathOf hg' hw
    rw [Option.map_id, Prod.map_id, List.map_id] at hself
    rw [← hself, ← himports]
    exact map_lead_outgoing hg v g'.nodes.idxOf _ fun w hw => (numberIn_of_lt hw).symm
  · rw [outgoing_eq_nil hg hv, outgoing_eq_nil hg' (mt hlt.mp hv)]
    rfl

/-- Graphs in which the same files have the same imports differ in numbers alone. -/
theorem SameImports.renumbers : Renumbers (numberIn g g') g g' where
  injective := h.injective_numberIn hg hg'
  lt_iff := h.numberIn_lt_iff hg hg'
  exists_of_lt w hw := by
    have hmem : g'.pathOf w ∈ g.nodes := (h.mem_nodes _).mpr (pathOf_mem hw)
    have hlt := (h.numberIn_lt_iff hg hg' _).mpr (List.idxOf_lt_length_of_mem hmem)
    refine ⟨g.nodes.idxOf (g'.pathOf w), pathOf_inj hg' hlt hw ?_⟩
    rw [h.pathOf_numberIn hg hg', pathOf_idxOf hmem]
  pathOf_eq := h.pathOf_numberIn hg hg'
  leads := h.leads_numberIn hg hg'

end

/-! ## What the numbers do not change -/

theorem successors_eq_filterMap_lead (g : ImportGraph) (v : Nat) :
    g.successors v = ((g.outgoing v).map Edge.lead).filterMap Prod.snd := by
  rw [List.filterMap_map]
  rfl

/-- The order of leads in the text. -/
def leadLe (a b : Markup.Directive × Option Nat) : Bool := decide (a.1.span.start ≤ b.1.span.start)

theorem map_lead_sortedEdges (g : ImportGraph) (v : Nat) :
    (g.sortedEdges v).map Edge.lead = ((g.outgoing v).map Edge.lead).mergeSort leadLe :=
  List.map_mergeSort fun _ _ _ _ => rfl

/-- A cycle takes its directive from the first lead to the second node. -/
theorem cycleOf?_cons (g : ImportGraph) (anchor : Nat) (rest : List Nat) :
    g.cycleOf? (anchor :: rest)
      = (firstLeast? (fun a b => decide (a.span.start < b.span.start))
          ((((g.outgoing anchor).map Edge.lead).filter (·.2 == some (rest.headD anchor))).map Prod.fst)).map
        (Cycle.mk ((anchor :: rest ++ [anchor]).map g.pathOf)) := by
  have hfirst : firstLeast? (fun a b : Markup.Directive => decide (a.span.start < b.span.start))
      ((((g.outgoing anchor).map Edge.lead).filter (·.2 == some (rest.headD anchor))).map Prod.fst)
      = (firstLeast? (fun a b : Edge => decide (a.directive.span.start < b.directive.span.start))
          ((g.outgoing anchor).filter (·.target? == some (rest.headD anchor)))).map Edge.directive := by
    rw [List.filter_map, List.map_map]
    exact firstLeast?_map (fun _ _ => rfl) _
  rw [hfirst, Option.map_map]
  rfl

namespace Renumbers

section

variable (h : Renumbers σ g g')

include h

theorem successors_eq (v : Nat) : g'.successors (σ v) = (g.successors v).map σ := by
  rw [successors_eq_filterMap_lead, h.leads, successors_eq_filterMap_lead, List.filterMap_map,
    List.map_filterMap]
  rfl

theorem imports_iff {a w : Nat} : g'.Imports (σ a) w ↔ ∃ b, σ b = w ∧ g.Imports a b := by
  simp only [← mem_successors, h.successors_eq, List.mem_map, and_comm]

theorem reaches_iff {a w : Nat} :
    ReflTransGen g'.Imports (σ a) w ↔ ∃ b, σ b = w ∧ ReflTransGen g.Imports a b := by
  constructor
  · intro hreach
    induction hreach with
    | refl => exact ⟨a, rfl, .refl⟩
    | tail _ hstep ih =>
      obtain ⟨b, rfl, hb⟩ := ih
      obtain ⟨c, rfl, hc⟩ := h.imports_iff.mp hstep
      exact ⟨c, rfl, hb.tail hc⟩
  · rintro ⟨b, rfl, hb⟩
    exact ReflTransGen.lift σ (fun c d hcd => h.imports_iff.mpr ⟨d, rfl, hcd⟩) _ _ hb

theorem sameComponent_iff {a b : Nat} : g'.SameComponent (σ a) (σ b) ↔ g.SameComponent a b := by
  have hreach : ∀ a b, ReflTransGen g'.Imports (σ a) (σ b) ↔ ReflTransGen g.Imports a b := by
    intro a b
    rw [h.reaches_iff]
    constructor
    · rintro ⟨c, hc, hac⟩
      exact h.injective hc ▸ hac
    · exact fun hab => ⟨b, rfl, hab⟩
  rw [SameComponent, SameComponent, hreach, hreach]

/-- Every component is one of the other graph under its numbers. -/
theorem exists_component (hg : g.WellFormed) (hg' : g'.WellFormed) (hmembers : members ∈ g.components) :
    ∃ members' ∈ g'.components, members'.Perm (members.map σ) := by
  obtain ⟨hcomponents, hnodup, hmem⟩ := components_spec hg
  obtain ⟨hcomponents', hnodup', hmem'⟩ := components_spec hg'
  have hcomponent := hcomponents members hmembers
  obtain ⟨a, ha⟩ := List.exists_mem_of_ne_nil _ hcomponent.nonempty
  have halt : a < g.nodes.length := (hmem a).mp (List.mem_flatten.mpr ⟨members, hmembers, ha⟩)
  obtain ⟨members', hmembers', ha'⟩ := List.mem_flatten.mp ((hmem' (σ a)).mpr ((h.lt_iff a).mpr halt))
  have hcomponent' := hcomponents' members' hmembers'
  refine ⟨members', hmembers', (List.perm_ext_iff_of_nodup ?_ ?_).mpr fun w => ?_⟩
  · exact (List.nodup_flatten.mp hnodup').1 members' hmembers'
  · exact ((List.nodup_flatten.mp hnodup).1 members hmembers).map h.injective
  · rw [List.mem_map]
    constructor
    · intro hw
      obtain ⟨v, rfl⟩ := h.exists_of_lt w ((hmem' w).mp (List.mem_flatten.mpr ⟨members', hmembers', hw⟩))
      have hsame := (ImportGraph.sameComponent_iff hcomponent' ha' _).mpr hw
      exact ⟨v, (ImportGraph.sameComponent_iff hcomponent ha v).mp (h.sameComponent_iff.mp hsame), rfl⟩
    · rintro ⟨v, hv, rfl⟩
      have hsame := (ImportGraph.sameComponent_iff hcomponent ha v).mpr hv
      exact (ImportGraph.sameComponent_iff hcomponent' ha' _).mp (h.sameComponent_iff.mpr hsame)

/-- The imports of a file lead to the same nodes in the order of the text. -/
theorem targets_eq (v : Nat) : (g'.sortedEdges (σ v)).filterMap Edge.target?
    = ((g.sortedEdges v).filterMap Edge.target?).map σ := by
  have htargets (g : ImportGraph) (v : Nat) : (g.sortedEdges v).filterMap Edge.target?
      = ((g.sortedEdges v).map Edge.lead).filterMap Prod.snd := by
    rw [List.filterMap_map]
    rfl
  have hsorted : (g'.sortedEdges (σ v)).map Edge.lead
      = ((g.sortedEdges v).map Edge.lead).map (Prod.map id (Option.map σ)) := by
    rw [map_lead_sortedEdges, map_lead_sortedEdges, h.leads]
    exact (List.map_mergeSort (f := Prod.map id (Option.map σ)) fun _ _ _ _ => rfl).symm
  rw [htargets g', hsorted, htargets g, List.filterMap_map, List.map_filterMap]
  rfl

theorem rotated_eq (loop : List Nat) : g'.rotated (loop.map σ) = (g.rotated loop).map σ := by
  have hleast : firstLeast? (fun a b => decide (g'.pathOf a < g'.pathOf b)) (loop.map σ)
      = (firstLeast? (fun a b => decide (g.pathOf a < g.pathOf b)) loop).map σ :=
    firstLeast?_map (fun a b => by rw [h.pathOf_eq, h.pathOf_eq]) loop
  rw [rotated, rotated, hleast]
  cases firstLeast? (fun a b => decide (g.pathOf a < g.pathOf b)) loop with
  | none => rfl
  | some first =>
    have hne : (· != σ first) ∘ σ = (· != first) := by
      funext v
      rw [Function.comp_apply, bne, bne, beq_eq_beq.mpr h.injective.eq_iff]
    rw [Option.map_some]
    dsimp only
    rw [List.dropWhile_map, List.takeWhile_map, hne, List.map_append]

theorem cycleOf?_eq (loop : List Nat) : g'.cycleOf? (loop.map σ) = g.cycleOf? loop := by
  cases loop with
  | nil => rfl
  | cons anchor rest =>
    have hpaths : (σ anchor :: rest.map σ ++ [σ anchor]).map g'.pathOf
        = (anchor :: rest ++ [anchor]).map g.pathOf := by
      have hcomp : g'.pathOf ∘ σ = g.pathOf := funext h.pathOf_eq
      have hmap : (σ anchor :: rest.map σ ++ [σ anchor]) = (anchor :: rest ++ [anchor]).map σ := by simp
      rw [hmap, List.map_map, hcomp]
    have hfollowing : (rest.map σ).headD (σ anchor) = σ (rest.headD anchor) := by
      cases rest <;> rfl
    have hfilter : (fun lead : Markup.Directive × Option Nat => lead.2 == some (σ (rest.headD anchor)))
          ∘ Prod.map id (Option.map σ) = fun lead => lead.2 == some (rest.headD anchor) := by
      funext lead
      have hsome : lead.2.map σ = some (σ (rest.headD anchor)) ↔ lead.2 = some (rest.headD anchor) :=
        (Option.map_injective h.injective).eq_iff' rfl
      exact beq_eq_beq.mpr hsome
    rw [List.map_cons, cycleOf?_cons, cycleOf?_cons, hpaths, hfollowing, h.leads, List.filter_map, hfilter,
      List.map_map]
    rfl

end

section

variable (h : Renumbers σ g g') (hg' : g'.WellFormed) (hlt : ∀ v ∈ members', v < g'.nodes.length)
  (hperm : members'.Perm (members.map σ))

include h hperm

theorem mem_members_iff (v : Nat) : σ v ∈ members' ↔ v ∈ members := by
  rw [hperm.mem_iff, List.mem_map_of_injective h.injective]

/-- Looking at steps finds the loops under the other numbers. -/
theorem foldl_addLoop_eq (steps : List (Nat × Nat)) (found : List (List Nat) × List (Nat × Nat)) :
    (steps.map (Prod.map σ σ)).foldl (g'.addLoop g'.successors members')
        (Prod.map (List.map (List.map σ)) (List.map (Prod.map σ σ)) found)
      = Prod.map (List.map (List.map σ)) (List.map (Prod.map σ σ))
          (steps.foldl (g.addLoop g.successors members) found) := by
  induction steps generalizing found with
  | nil => rfl
  | cons step rest ih =>
    have hloop := loopThrough_renamed h.injective h.successors_eq (h.mem_members_iff hperm)
      (by rw [hperm.length_eq, List.length_map]) step.1 step.2
    have hcovered : (found.2.map (Prod.map σ σ)).contains (Prod.map σ σ step) = found.2.contains step := by
      rw [Bool.eq_iff_iff, List.contains_iff_mem, List.contains_iff_mem,
        List.mem_map_of_injective (h.injective.prodMap h.injective)]
    have hstep : g'.addLoop g'.successors members'
          (Prod.map (List.map (List.map σ)) (List.map (Prod.map σ σ)) found) (Prod.map σ σ step)
        = Prod.map (List.map (List.map σ)) (List.map (Prod.map σ σ))
            (g.addLoop g.successors members found step) := by
      simp only [addLoop, Prod.map_fst, Prod.map_snd, hcovered, hloop, h.rotated_eq, stepsOf_map]
      split
      · rfl
      · rw [Prod.map_apply, List.map_cons, List.map_append]
    rw [List.map_cons, List.foldl_cons, List.foldl_cons, hstep, ih]

include hg' hlt

/-- The steps of a component are looked at in one order, whatever the numbers are. -/
theorem stepsWithin_eq : g'.stepsWithin members' = (g.stepsWithin members).map (Prod.map σ σ) := by
  have hsorted : members'.mergeSort (fun a b => decide (g'.pathOf a ≤ g'.pathOf b))
      = (members.mergeSort fun a b => decide (g.pathOf a ≤ g.pathOf b)).map σ := by
    have hsame : (members'.mergeSort fun a b => decide (g'.pathOf a ≤ g'.pathOf b)).Perm
        ((members.mergeSort fun a b => decide (g.pathOf a ≤ g.pathOf b)).map σ) :=
      (List.mergeSort_perm _ _).trans (hperm.trans ((List.mergeSort_perm _ _).map σ).symm)
    refine @List.Perm.eq_of_pairwise _ (fun a b => g'.pathOf a ≤ g'.pathOf b) _ _
      (fun a b ha hb hab hba => ?_) (pairwise_mergeSort_pathOf members') ?_ hsame
    · have ha : a ∈ members' := List.mem_mergeSort.mp ha
      have hb : b ∈ members' := List.mem_mergeSort.mp (hsame.mem_iff.mpr hb)
      exact pathOf_inj hg' (hlt a ha) (hlt b hb) (le_antisymm hab hba)
    · refine List.pairwise_map.mpr ((pairwise_mergeSort_pathOf members).imp fun {a b} hab => ?_)
      rw [h.pathOf_eq, h.pathOf_eq]
      exact hab
  rw [stepsWithin, stepsWithin, hsorted, List.flatMap_map, List.map_flatMap]
  refine List.flatMap_congr fun v _ => ?_
  rw [h.targets_eq, List.filter_map, List.map_map, List.map_map]
  have hfilter : members'.contains ∘ σ = members.contains := by
    funext w
    rw [Function.comp_apply, Bool.eq_iff_iff, List.contains_iff_mem, List.contains_iff_mem,
      h.mem_members_iff hperm]
  rw [hfilter]
  rfl

theorem loopsWithin_eq : g'.loopsWithin g'.successors members'
    = (g.loopsWithin g.successors members).map (List.map σ) := by
  rw [loopsWithin, loopsWithin, h.stepsWithin_eq hg' hlt hperm]
  exact congrArg Prod.fst (h.foldl_addLoop_eq hperm (g.stepsWithin members) ([], []))

end

/-- Every cycle of a graph is one of the other graph. -/
theorem mem_cycles (h : Renumbers σ g g') (hg : g.WellFormed) (hg' : g'.WellFormed) {c : Cycle}
    (hc : c ∈ g.cycles) : c ∈ g'.cycles := by
  rw [cycles, List.mem_mergeSort, List.mem_filterMap] at hc
  obtain ⟨loop, hloop, hcycle⟩ := hc
  rw [List.mem_eraseDups, loops_eq hg, List.mem_flatMap] at hloop
  obtain ⟨members, hmembers, hloop⟩ := hloop
  obtain ⟨members', hmembers', hperm⟩ := h.exists_component hg hg' hmembers
  have hlt : ∀ v ∈ members', v < g'.nodes.length := fun v hv =>
    ((components_spec hg').2.2 v).mp (List.mem_flatten.mpr ⟨members', hmembers', hv⟩)
  refine mem_cycles_of_mem_loops ?_ ((h.cycleOf?_eq loop).trans hcycle)
  rw [loops_eq hg', List.mem_flatMap]
  refine ⟨members', hmembers', List.mem_reverse.mpr ?_⟩
  rw [h.loopsWithin_eq hg' hlt hperm]
  exact List.mem_map_of_mem (List.mem_reverse.mp hloop)

end Renumbers

/-- Two graphs in which the same files have the same imports have the same cycles, in the same order. -/
theorem cycles_eq_of_sameImports (hg : g.WellFormed) (hg' : g'.WellFormed) (h : SameImports g g') :
    g.cycles = g'.cycles := by
  have hσ := h.renumbers hg hg'
  have hτ := h.symm.renumbers hg' hg
  have hnodup : ∀ {g : ImportGraph}, g.WellFormed → g.cycles.Nodup := fun hg =>
    (nodup_paths hg).of_map
  have hperm : g.cycles.Perm g'.cycles :=
    (List.perm_ext_iff_of_nodup (hnodup hg) (hnodup hg')).mpr fun c =>
      ⟨hσ.mem_cycles hg hg', hτ.mem_cycles hg' hg⟩
  -- the paths of cycles strictly ascend
  exact hperm.eq_of_pairwise (fun a b _ _ hab hba => absurd hab hba.not_gt) (pairwise_path_lt hg)
    (pairwise_path_lt hg')

/-- The two files of `mutualImports` with each other's number. The import of the file that came first
comes last among all edges. -/
def renumberedImports : ImportGraph where
  nodes := mutualImports.nodes.reverse
  edges := (mutualImports.edges.rotate 1).map fun e =>
    { e with source := 1 - e.source, resolution := .file (1 - e.target?.getD 0) }

theorem cycles_renumberedImports : mutualImports.edges.map Edge.step? ≠ renumberedImports.edges.map Edge.step?
    ∧ mutualImports.cycles ≠ [] ∧ mutualImports.cycles = renumberedImports.cycles := by
  have hwellFormed : renumberedImports.WellFormed := ⟨by decide, by decide, by decide⟩
  have hsame : SameImports mutualImports renumberedImports := by
    refine ⟨fun path => List.mem_reverse.symm, ?_⟩
    decide
  have hself : mutualImports.Imports 1 1 := by
    show ∃ e ∈ mutualImports.edges, e.source = 1 ∧ e.target? = some 1
    decide
  refine ⟨by decide, fun hnil => ?_, cycles_eq_of_sameImports mutualImports_wellFormed hwellFormed hsame⟩
  exact (cycles_eq_nil_iff mutualImports_wellFormed).mp hnil 1 (.single hself)

end ImportGraph

end TypstLint
