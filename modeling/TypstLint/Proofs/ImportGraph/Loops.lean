import Mathlib.Data.List.Chain
import TypstLint.ImportGraph.Cycles
import TypstLint.Proofs.Distinct
import TypstLint.Proofs.ImportGraph.Components

set_option autoImplicit false

/-! # Loops through a step

A breadth-first search leaves a trail in which every node but the start stands behind the node that it
was reached from. Within a component the search gets to its goal, so the way back along the trail
closes a loop: `loopThrough_spec`. -/

namespace TypstLint.ImportGraph

variable {next : Nat → List Nat} {start goal : Nat}

/-! ## Trails -/

/-- The nodes that were reached. -/
def Trail.nodes (trail : Trail) : List Nat := trail.map Prod.fst

theorem Trail.mem_nodes_append {trail : Trail} {v : Nat} (h : v ∈ trail.nodes) (later : Trail) :
    v ∈ (trail ++ later : Trail).nodes := by
  rw [nodes, List.map_append]
  exact List.mem_append_left _ h

/-- A trail that was made by adding one node after the other, each behind one that leads to it. -/
inductive IsTrail (next : Nat → List Nat) (start : Nat) : Trail → Prop where
  | start : IsTrail next start [(start, none)]
  | step {trail : Trail} {before node : Nat} : IsTrail next start trail → before ∈ trail.nodes →
      node ∉ trail.nodes → node ∈ next before → IsTrail next start (trail ++ [(node, some before)])

theorem lookup_isNone_iff (trail : Trail) (node : Nat) :
    (trail.lookup node).isNone ↔ node ∉ trail.nodes := by
  induction trail with
  | nil => simp [Trail.nodes]
  | cons entry rest ih =>
    obtain ⟨v, before⟩ := entry
    by_cases h : node = v
    · subst h
      simp [Trail.nodes]
    · have hbeq : (node == v) = false := by simpa using h
      simpa [Trail.nodes, List.lookup_cons, hbeq, h] using ih

/-- The new nodes that are put on a trail when a node is taken from the queue. -/
def Trail.fresh (trail : Trail) (next : Nat → List Nat) (node : Nat) : List Nat :=
  ((next node).eraseDups).filter fun child => (trail.lookup child).isNone

theorem Trail.mem_fresh {trail : Trail} {node v : Nat} :
    v ∈ trail.fresh next node ↔ v ∈ next node ∧ v ∉ trail.nodes := by
  rw [fresh, List.mem_filter, List.mem_eraseDups, lookup_isNone_iff]

theorem Trail.nodes_append_map (trail : Trail) (new : List Nat) (node : Nat) :
    (trail ++ new.map (·, some node) : Trail).nodes = trail.nodes ++ new := by
  simp [nodes, Function.comp_def]

theorem IsTrail.nodup {trail : Trail} (h : IsTrail next start trail) : trail.nodes.Nodup := by
  induction h with
  | start => simp [Trail.nodes]
  | @step trail before node _ _ hfresh _ ih =>
    simp only [Trail.nodes, List.map_append, List.map_cons, List.map_nil] at hfresh ⊢
    exact List.nodup_append.mpr ⟨ih, by simp, by
      rintro a ha b hb rfl
      simp only [List.mem_singleton] at hb
      exact hfresh (hb ▸ ha)⟩

theorem IsTrail.start_mem {trail : Trail} (h : IsTrail next start trail) : start ∈ trail.nodes := by
  induction h with
  | start => simp [Trail.nodes]
  | step _ _ _ _ ih => simp_all [Trail.nodes]

/-- New successors of a node of a trail can be added to it one after the other. -/
theorem IsTrail.append {trail : Trail} {before : Nat} {new : List Nat}
    (h : IsTrail next start trail) (hbefore : before ∈ trail.nodes) (hnodup : new.Nodup)
    (hnew : ∀ v ∈ new, v ∉ trail.nodes ∧ v ∈ next before) :
    IsTrail next start (trail ++ new.map (·, some before)) := by
  induction new generalizing trail with
  | nil => simpa using h
  | cons v rest ih =>
    obtain ⟨hfresh, hstep⟩ := hnew v List.mem_cons_self
    obtain ⟨hv, hrest⟩ := List.nodup_cons.mp hnodup
    have h' := IsTrail.step h hbefore hfresh hstep
    have := ih h' (Trail.mem_nodes_append hbefore _) hrest (by
      intro w hw
      obtain ⟨hwfresh, hwstep⟩ := hnew w (List.mem_cons_of_mem v hw)
      refine ⟨?_, hwstep⟩
      have hwv : w ≠ v := fun e => hv (e ▸ hw)
      simpa [Trail.nodes, hwv] using hwfresh)
    simpa using this

/-- A way back: from `goal` to `start` against the steps, through different nodes. -/
structure IsWayBack (next : Nat → List Nat) (start goal : Nat) (way : List Nat) : Prop where
  head_eq : way.head? = some goal
  last_eq : way.getLast? = some start
  chain : way.IsChain fun a b => Leads next b a
  nodup : way.Nodup

/-- Following a trail from one of its nodes gives a way back to its start. What was added to the trail
later does not matter. -/
theorem IsTrail.followTrail_spec {trail : Trail} (h : IsTrail next start trail) {node : Nat}
    (fuel : Nat) (later : Trail) (hnode : node ∈ trail.nodes) (hfuel : trail.length ≤ fuel) :
    IsWayBack next start node (followTrail (trail ++ later) fuel node)
      ∧ ∀ v ∈ followTrail (trail ++ later) fuel node, v ∈ trail.nodes := by
  induction h generalizing node fuel later with
  | start =>
    obtain ⟨fuel, rfl⟩ : ∃ k, fuel = k + 1 := ⟨fuel - 1, by simp at hfuel; omega⟩
    obtain rfl : node = start := by simpa [Trail.nodes] using hnode
    have : followTrail ([(node, none)] ++ later) (fuel + 1) node = [node] := by
      simp [followTrail]
    rw [this]
    exact ⟨⟨rfl, rfl, by simp, by simp⟩, by simp [Trail.nodes]⟩
  | @step trail before new htrail hbefore hfresh hstep ih =>
    rw [List.length_append, List.length_singleton] at hfuel
    obtain ⟨fuel, rfl⟩ : ∃ k, fuel = k + 1 := ⟨fuel - 1, by omega⟩
    rw [List.append_assoc]
    by_cases hold : node ∈ trail.nodes
    · obtain ⟨way, hmem⟩ := ih (fuel + 1) ([(new, some before)] ++ later) hold (by omega)
      exact ⟨way, fun v hv => Trail.mem_nodes_append (hmem v hv) _⟩
    · -- the last entry of the trail leads back to an older one, and the rest of the way is older
      obtain rfl : node = new := by
        simpa [Trail.nodes, show node ∉ trail.map Prod.fst from hold] using hnode
      obtain ⟨way, hmem⟩ := ih fuel ([(node, some before)] ++ later) hbefore (by omega)
      have hlookup : ((trail ++ ([(node, some before)] ++ later)).lookup node).join = some before := by
        have hnone : trail.lookup node = none :=
          Option.isNone_iff_eq_none.mp ((lookup_isNone_iff trail node).mpr hold)
        simp [List.lookup_append, hnone]
      have hunfold : followTrail (trail ++ ([(node, some before)] ++ later)) (fuel + 1) node
          = node :: followTrail (trail ++ ([(node, some before)] ++ later)) fuel before := by
        rw [followTrail, hlookup]
      rw [hunfold]
      generalize followTrail (trail ++ ([(node, some before)] ++ later)) fuel before = rest
        at way hmem ⊢
      obtain ⟨b, tail, rfl⟩ : ∃ b tail, rest = b :: tail := by
        cases rest with
        | nil => cases way.head_eq
        | cons b tail => exact ⟨b, tail, rfl⟩
      obtain rfl : b = before := by simpa using way.head_eq
      refine ⟨⟨rfl, by simpa using way.last_eq, ?_, ?_⟩, ?_⟩
      · exact List.isChain_cons_cons.mpr ⟨hstep, way.chain⟩
      · exact List.nodup_cons.mpr ⟨fun hv => hold (hmem node hv), way.nodup⟩
      · intro v hv
        rcases List.mem_cons.mp hv with rfl | hv
        · simp [Trail.nodes]
        · exact Trail.mem_nodes_append (hmem v hv) _

/-! ## Searching breadth first -/

/-- What is true while a search within `members` goes on: nodes that were taken from the queue lead
only to nodes of the trail. -/
structure Searching (next : Nat → List Nat) (members : List Nat) (start : Nat) (trail : Trail)
    (queue : List Nat) : Prop where
  isTrail : IsTrail next start trail
  mem_members : ∀ v ∈ trail.nodes, v ∈ members
  queue_mem : ∀ v ∈ queue, v ∈ trail.nodes
  taken_closed : ∀ v ∈ trail.nodes, v ∉ queue → ∀ w ∈ next v, w ∈ trail.nodes

variable {members : List Nat}

theorem searching_start (hstart : start ∈ members) :
    Searching next members start [(start, none)] [start] :=
  ⟨.start, by simpa [Trail.nodes] using hstart, by simp [Trail.nodes], by simp [Trail.nodes]⟩

theorem Searching.length_le {trail : Trail} {queue : List Nat}
    (h : Searching next members start trail queue) : trail.length ≤ members.length := by
  have := (List.subperm_of_subset h.isTrail.nodup h.mem_members).length_le
  simpa [Trail.nodes] using this

/-- Taking a node from the queue keeps the invariant of the search. -/
theorem Searching.take {trail : Trail} {queue : List Nat} {node : Nat}
    (h : Searching next members start trail (node :: queue))
    (hnext : ∀ v, ∀ w ∈ next v, w ∈ members) :
    Searching next members start (trail ++ (trail.fresh next node).map (·, some node))
      (queue ++ trail.fresh next node) := by
  have hnode : node ∈ trail.nodes := h.queue_mem node List.mem_cons_self
  have hnew : ∀ v, v ∈ trail.fresh next node ↔ v ∈ next node ∧ v ∉ trail.nodes := fun _ => Trail.mem_fresh
  have hnodes := trail.nodes_append_map (trail.fresh next node) node
  refine ⟨?_, ?_, ?_, ?_⟩
  · refine h.isTrail.append hnode ((nodup_eraseDups _).filter _) fun v hv => ?_
    exact ⟨((hnew v).mp hv).2, ((hnew v).mp hv).1⟩
  · intro v hv
    rw [hnodes] at hv
    rcases List.mem_append.mp hv with hv | hv
    · exact h.mem_members v hv
    · exact hnext node v ((hnew v).mp hv).1
  · intro v hv
    rw [hnodes]
    rcases List.mem_append.mp hv with hv | hv
    · exact List.mem_append_left _ (h.queue_mem v (List.mem_cons_of_mem node hv))
    · exact List.mem_append_right _ hv
  · intro v hv hqueue w hw
    rw [hnodes] at hv ⊢
    rw [List.mem_append, not_or] at hqueue
    have hold : v ∈ trail.nodes := (List.mem_append.mp hv).resolve_right hqueue.2
    by_cases hmem : w ∈ trail.nodes
    · exact List.mem_append_left _ hmem
    · by_cases hvn : v = node
      · exact List.mem_append_right _ ((hnew w).mpr ⟨hvn ▸ hw, hmem⟩)
      · exact absurd (h.taken_closed v hold (by simp [hvn, hqueue.1]) w hw) hmem

/-- A search ends when it comes to the goal, or with all that the start reaches. Whatever `P` holds when
it begins and is kept whenever a node is taken from the queue is true at the end. -/
theorem Searching.searchTrail_spec {P : Trail → List Nat → Prop} {trail : Trail} {queue : List Nat}
    (h : Searching next members start trail queue) (hP : P trail queue) (goal fuel : Nat)
    (hnext : ∀ v, ∀ w ∈ next v, w ∈ members)
    (htake : ∀ trail node queue, Searching next members start trail (node :: queue) →
      P trail (node :: queue) →
      P (trail ++ (trail.fresh next node).map (·, some node)) (queue ++ trail.fresh next node))
    (hfuel : members.length + queue.length ≤ fuel + trail.length) :
    ∃ rest, Searching next members start (searchTrail next goal fuel trail queue) rest
      ∧ P (searchTrail next goal fuel trail queue) rest ∧ (rest.head? = some goal ∨ rest = []) := by
  induction fuel generalizing trail queue with
  | zero =>
    have hle := h.length_le
    obtain rfl : queue = [] := List.eq_nil_of_length_eq_zero (by omega)
    exact ⟨[], by simpa [searchTrail] using h, by simpa [searchTrail] using hP, .inr rfl⟩
  | succ fuel ih =>
    cases queue with
    | nil => exact ⟨[], by simpa [searchTrail] using h, by simpa [searchTrail] using hP, .inr rfl⟩
    | cons node queue =>
      rw [searchTrail]
      by_cases hgoal : node = goal
      · simp only [hgoal, beq_self_eq_true, if_true]
        subst hgoal
        exact ⟨node :: queue, h, hP, .inl rfl⟩
      · have hbeq : (node == goal) = false := by simpa using hgoal
        simp only [hbeq, Bool.false_eq_true, if_false]
        -- one node less in the queue, and each node that is put there makes the trail longer
        refine ih (h.take hnext) (htake trail node queue h hP) ?_
        simp only [List.length_append, List.length_map, List.length_cons] at hfuel ⊢
        omega

/-! ## Within a component -/

/-- The steps to members of a component. -/
def inside (next : Nat → List Nat) (members : List Nat) (node : Nat) : List Nat :=
  (next node).filter members.contains

theorem mem_inside {v w : Nat} : w ∈ inside next members v ↔ w ∈ next v ∧ w ∈ members := by
  simp [inside]

/-- Members of a component reach each other within it. -/
theorem IsComponent.reaches_inside (h : IsComponent next members) {a b : Nat} (ha : a ∈ members)
    (hb : b ∈ members) : Reaches (inside next members) a b := by
  have hba := ((h.mem_iff a ha b).mp hb).2
  have hab := ((h.mem_iff a ha b).mp hb).1
  clear hb
  induction hab with
  | refl => exact .refl
  | @tail m c ham step ih =>
    have hma : Reaches next m a := .head step hba
    have hc : c ∈ members := (h.mem_iff a ha c).mpr ⟨ham.tail step, hba⟩
    exact (ih hma).tail (mem_inside.mpr ⟨step, hc⟩)

theorem shortestPath_eq (next : Nat → List Nat) (members : List Nat) (start goal : Nat) :
    shortestPath next members start goal = (followTrail (searchTrail (inside next members) goal
      members.length [(start, none)] [start]) (members.length + 1) goal).reverse := rfl

/-- The shortest path between two members is one. -/
theorem shortestPath_spec (h : IsComponent next members) (hstart : start ∈ members)
    (hgoal : goal ∈ members) :
    IsWayBack (inside next members) start goal (shortestPath next members start goal).reverse
      ∧ ∀ v ∈ shortestPath next members start goal, v ∈ members := by
  have hnext : ∀ v, ∀ w ∈ inside next members v, w ∈ members := fun _ _ hw => (mem_inside.mp hw).2
  obtain ⟨rest, hlast, -, hend⟩ := (searching_start hstart).searchTrail_spec (P := fun _ _ => True)
    trivial goal members.length hnext (fun _ _ _ _ _ => trivial) (by simp)
  have hmem : goal ∈ (searchTrail (inside next members) goal members.length [(start, none)]
      [start]).nodes := by
    rcases hend with hhead | rfl
    · exact hlast.queue_mem goal (List.mem_of_head? hhead)
    · exact mem_of_reaches (fun v hv w hw => hlast.taken_closed v hv (by simp) w hw)
        hlast.isTrail.start_mem (h.reaches_inside hstart hgoal)
  obtain ⟨way, hway⟩ := hlast.isTrail.followTrail_spec (members.length + 1) [] hmem
    (Nat.le_succ_of_le hlast.length_le)
  rw [List.append_nil] at way hway
  rw [shortestPath_eq, List.reverse_reverse]
  exact ⟨way, fun v hv => hlast.mem_members v (hway v (List.mem_reverse.mp hv))⟩

/-! ## Loops -/

/-- Different nodes, each of which leads to the next one, and the last one to the first. -/
structure IsLoop (next : Nat → List Nat) (loop : List Nat) : Prop where
  nonempty : loop ≠ []
  nodup : loop.Nodup
  leads : ∀ step ∈ stepsOf loop, Leads next step.1 step.2

/-- Consecutive elements of a list are related if and only if the list is a chain. -/
theorem forall_mem_zip_iff_isChain {α : Type} {r : α → α → Prop} (a b : α) (rest : List α) :
    (∀ step ∈ (a :: rest).zip (rest ++ [b]), r step.1 step.2) ↔ (a :: rest ++ [b]).IsChain r := by
  induction rest generalizing a with
  | nil => simp
  | cons c rest ih =>
    rw [List.cons_append, List.zip_cons_cons, List.forall_mem_cons, ih c]
    simp

/-- A way back, read from its end, is a path. -/
theorem IsWayBack.path_spec {path : List Nat} (h : IsWayBack next start goal path.reverse) :
    ∃ rest, path = rest ++ [goal] ∧ path.head? = some start ∧ path.IsChain (Leads next)
      ∧ path.Nodup := by
  obtain ⟨tail, htail⟩ : ∃ tail, path.reverse = goal :: tail := by
    match hrev : path.reverse, h.head_eq with
    | a :: tail, ha => exact ⟨tail, by simpa using ha⟩
  have hlast := h.last_eq
  rw [List.getLast?_reverse] at hlast
  exact ⟨tail.reverse, by simpa using congrArg List.reverse htail, hlast,
    List.isChain_reverse.mp h.chain, List.nodup_reverse.mp h.nodup⟩

/-- A path to the start of a step closes a loop through the step. -/
theorem isLoop_of_path {source target : Nat} {rest : List Nat} (hstep : target ∈ next source)
    (hhead : (rest ++ [source]).head? = some target)
    (hchain : (rest ++ [source]).IsChain (Leads next)) (hnodup : (rest ++ [source]).Nodup) :
    IsLoop next (source :: rest) ∧ (source, target) ∈ stepsOf (source :: rest) := by
  have hstepsOf : stepsOf (source :: rest) = (source :: rest).zip (rest ++ [source]) := rfl
  obtain ⟨hrest, -, hdisjoint⟩ := List.nodup_append.mp hnodup
  obtain ⟨more, hmore⟩ : ∃ more, rest ++ [source] = target :: more := by
    match rest ++ [source], hhead with
    | b :: more, hb => exact ⟨more, by rw [Option.some.inj hb]⟩
  have hclosed : (source :: rest ++ [source]).IsChain (Leads next) := by
    rw [List.cons_append, hmore]
    exact List.isChain_cons_cons.mpr ⟨hstep, hmore ▸ hchain⟩
  refine ⟨⟨by simp, ?_, ?_⟩, ?_⟩
  · refine List.nodup_cons.mpr ⟨fun hmem => ?_, hrest⟩
    exact hdisjoint source hmem source List.mem_cons_self rfl
  · rw [hstepsOf]
    exact (forall_mem_zip_iff_isChain source source rest).mpr hclosed
  · rw [hstepsOf, hmore]
    exact List.mem_cons_self

/-- The loop through a step between members of a component is one, and the step is part of it. -/
theorem loopThrough_spec (h : IsComponent next members) {source target : Nat}
    (hsource : source ∈ members) (htarget : target ∈ members) (hstep : target ∈ next source) :
    IsLoop next (loopThrough next members source target)
      ∧ (source, target) ∈ stepsOf (loopThrough next members source target)
      ∧ ∀ v ∈ loopThrough next members source target, v ∈ members := by
  unfold loopThrough
  by_cases heq : target = source
  · subst heq
    simp only [beq_self_eq_true, if_true]
    exact ⟨⟨by simp, by simp, by simpa [stepsOf, Leads] using hstep⟩, by simp [stepsOf], by simpa⟩
  · have hbeq : (target == source) = false := by simpa using heq
    simp only [hbeq, Bool.false_eq_true, if_false]
    obtain ⟨way, hmembers⟩ := shortestPath_spec h htarget hsource
    obtain ⟨rest, hrest, hhead, hchain, hnodup⟩ := way.path_spec
    rw [hrest] at hmembers hhead hchain hnodup ⊢
    rw [List.dropLast_concat]
    have hsteps : (rest ++ [source]).IsChain (Leads next) :=
      hchain.imp fun a b hab => (mem_inside.mp hab).1
    obtain ⟨hloop, hmem⟩ := isLoop_of_path hstep hhead hsteps hnodup
    refine ⟨hloop, hmem, fun v hv => ?_⟩
    rcases List.mem_cons.mp hv with rfl | hv
    · exact hsource
    · exact hmembers v (List.mem_append_left _ hv)

end TypstLint.ImportGraph
