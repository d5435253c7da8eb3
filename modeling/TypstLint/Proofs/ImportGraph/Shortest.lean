import TypstLint.Proofs.Assoc
import TypstLint.Proofs.ImportGraph.Loops

set_option autoImplicit false

/-! # Shortest loops

A breadth-first search takes the nodes from its queue in the order of their depths, that is of their
distances from the start along the trail. So the depth of a node is the length of a shortest way to it,
and within a component no loop through a step is shorter than the one that is found from it
(`length_loopThrough_le`). -/

namespace TypstLint.ImportGraph

variable {next : Nat → List Nat} {start goal : Nat} {members : List Nat} {depth : Nat → Nat}
  {trail : Trail} {queue : List Nat}

/-! ## Where nodes were reached from -/

theorem Trail.join_lookup_start (start node : Nat) :
    (List.lookup node [(start, (none : Option Nat))]).join = none := by
  by_cases hnode : node = start
  · simp [hnode]
  · simp [List.lookup_cons, beq_false_of_ne hnode]

theorem Trail.mem_nodes_of_lookup {node before : Nat}
    (h : (trail.lookup node).join = some before) : node ∈ trail.nodes := by
  by_contra hnode
  rw [Option.isNone_iff_eq_none.mp ((lookup_isNone_iff trail node).mpr hnode)] at h
  cases h

/-- What a longer trail says of a node was said before, or the node is new on it. -/
theorem Trail.lookup_append_map (fresh : List Nat) {origin node before : Nat}
    (h : ((trail ++ fresh.map (·, some origin)).lookup node).join = some before) :
    (trail.lookup node).join = some before ∨ node ∈ fresh ∧ before = origin := by
  rw [List.lookup_append] at h
  cases hold : trail.lookup node with
  | some found =>
    rw [hold, Option.some_or] at h
    exact .inl h
  | none =>
    rw [hold, Option.none_or] at h
    cases hnew : (fresh.map (·, some origin)).lookup node with
    | none =>
      rw [hnew] at h
      cases h
    | some found =>
      obtain ⟨w, hw, heq⟩ := List.mem_map.mp (Assoc.mem_of_lookup hnew)
      obtain ⟨rfl, rfl⟩ := Prod.mk.inj heq
      rw [hnew] at h
      exact .inr ⟨hw, (Option.some.inj h).symm⟩

/-- Whatever a node of a trail was reached from is on the trail itself. -/
theorem IsTrail.before_mem (h : IsTrail next start trail) {node before : Nat}
    (hlookup : (trail.lookup node).join = some before) : before ∈ trail.nodes := by
  induction h with
  | start =>
    rw [Trail.join_lookup_start] at hlookup
    cases hlookup
  | @step trail earlier new _ hearlier _ _ ih =>
    rcases Trail.lookup_append_map [new] hlookup with hold | ⟨-, rfl⟩
    · exact Trail.mem_nodes_append (ih hold) _
    · exact Trail.mem_nodes_append hearlier _

/-! ## Depths -/

/-- The depths of the nodes while a search goes on. A node is one deeper than the one that it was reached
from; the queue is in the order of the depths, and nothing on the trail is more than one deeper than the
node at its front. -/
structure Levelled (next : Nat → List Nat) (start : Nat) (depth : Nat → Nat) (trail : Trail)
    (queue : List Nat) : Prop where
  start_eq : depth start = 0
  reached : ∀ node before, (trail.lookup node).join = some before → depth node = depth before + 1
  ascending : queue.Pairwise fun v w => depth v ≤ depth w
  within_one : ∀ front ∈ queue.head?, ∀ v ∈ trail.nodes, depth v ≤ depth front + 1
  taken : ∀ v ∈ trail.nodes, v ∉ queue → ∀ w ∈ next v, depth w ≤ depth v + 1

theorem levelled_start (next : Nat → List Nat) (start : Nat) :
    Levelled next start (fun _ => 0) [(start, none)] [start] where
  start_eq := rfl
  reached node before h := by
    rw [Trail.join_lookup_start] at h
    cases h
  ascending := List.pairwise_singleton _ _
  within_one _ _ _ _ := Nat.zero_le _
  taken _ _ _ _ _ := Nat.zero_le _

/-- The depths after a node was taken from the queue. -/
def deepened (depth : Nat → Nat) (fresh : List Nat) (node v : Nat) : Nat :=
  if v ∈ fresh then depth node + 1 else depth v

theorem deepened_of_mem_fresh {node v : Nat} (hv : v ∈ trail.fresh next node) :
    deepened depth (trail.fresh next node) node v = depth node + 1 := if_pos hv

theorem deepened_of_mem_nodes {node v : Nat} (hv : v ∈ trail.nodes) :
    deepened depth (trail.fresh next node) node v = depth v :=
  if_neg fun hfresh => (Trail.mem_fresh.mp hfresh).2 hv

namespace Levelled

variable {node : Nat} (h : Levelled next start depth trail (node :: queue))
  (hsearch : Searching next members start trail (node :: queue))

include h

/-- Nothing is more than one deeper than the node that was taken. -/
theorem deepened_le {v : Nat} (hv : v ∈ trail.nodes ++ trail.fresh next node) :
    deepened depth (trail.fresh next node) node v ≤ depth node + 1 := by
  rcases List.mem_append.mp hv with hold | hnew
  · exact (deepened_of_mem_nodes hold).trans_le (h.within_one node rfl v hold)
  · exact (deepened_of_mem_fresh hnew).le

include hsearch

/-- What is left in the queue, and what is put at the end of it, is at least as deep as the node that was
taken. -/
theorem le_deepened {v : Nat} (hv : v ∈ queue ++ trail.fresh next node) :
    depth node ≤ deepened depth (trail.fresh next node) node v := by
  rcases List.mem_append.mp hv with hold | hnew
  · rw [deepened_of_mem_nodes (hsearch.queue_mem v (List.mem_cons_of_mem node hold))]
    exact (List.pairwise_cons.mp h.ascending).1 v hold
  · rw [deepened_of_mem_fresh hnew]
    exact Nat.le_succ _

theorem reached_take {v before : Nat}
    (hlookup : ((trail ++ (trail.fresh next node).map (·, some node)).lookup v).join = some before) :
    deepened depth (trail.fresh next node) node v
      = deepened depth (trail.fresh next node) node before + 1 := by
  have hnode : node ∈ trail.nodes := hsearch.queue_mem node List.mem_cons_self
  rcases Trail.lookup_append_map _ hlookup with hlookup | ⟨hnew, rfl⟩
  · rw [deepened_of_mem_nodes (Trail.mem_nodes_of_lookup hlookup),
      deepened_of_mem_nodes (hsearch.isTrail.before_mem hlookup), h.reached v before hlookup]
  · rw [deepened_of_mem_fresh hnew, deepened_of_mem_nodes hnode]

theorem ascending_take : (queue ++ trail.fresh next node).Pairwise fun v w =>
    deepened depth (trail.fresh next node) node v ≤ deepened depth (trail.fresh next node) node w := by
  have hmem : ∀ v ∈ queue, v ∈ trail.nodes := fun v hv =>
    hsearch.queue_mem v (List.mem_cons_of_mem node hv)
  refine List.pairwise_append.mpr ⟨?_, ?_, ?_⟩
  · refine (List.pairwise_cons.mp h.ascending).2.imp_of_mem fun {v w} hv hw hvw => ?_
    rw [deepened_of_mem_nodes (hmem v hv), deepened_of_mem_nodes (hmem w hw)]
    exact hvw
  · refine List.pairwise_of_forall_mem_list fun v hv w hw => ?_
    rw [deepened_of_mem_fresh hv, deepened_of_mem_fresh hw]
  · intro v hv w hw
    rw [deepened_of_mem_fresh hw]
    exact h.deepened_le (List.mem_append_left _ (hmem v hv))

/-- What a node that was taken leads to is one deeper at most, the node that was just taken included. -/
theorem taken_take {v w : Nat} (hv : v ∈ trail.nodes) (hqueue : v ∉ queue) (hw : w ∈ next v) :
    deepened depth (trail.fresh next node) node w ≤ depth v + 1 := by
  by_cases heq : v = node
  · subst heq
    refine h.deepened_le (List.mem_append.mpr ?_)
    by_cases hold : w ∈ trail.nodes
    · exact .inl hold
    · exact .inr (Trail.mem_fresh.mpr ⟨hw, hold⟩)
  · have hnotin : v ∉ node :: queue := by simp [heq, hqueue]
    rw [deepened_of_mem_nodes (hsearch.taken_closed v hv hnotin w hw)]
    exact h.taken v hv hnotin w hw

/-- Taking a node from the queue puts what is new one deeper at the end of it. -/
theorem take : Levelled next start (deepened depth (trail.fresh next node) node)
    (trail ++ (trail.fresh next node).map (·, some node)) (queue ++ trail.fresh next node) where
  start_eq := (deepened_of_mem_nodes hsearch.isTrail.start_mem).trans h.start_eq
  reached _ _ hlookup := h.reached_take hsearch hlookup
  ascending := h.ascending_take hsearch
  within_one front hhead v hv := by
    rw [trail.nodes_append_map] at hv
    have hfront := h.le_deepened hsearch (List.mem_of_mem_head? hhead)
    exact (h.deepened_le hv).trans (Nat.succ_le_succ hfront)
  taken v hv hqueue w hw := by
    rw [trail.nodes_append_map] at hv
    rw [List.mem_append, not_or] at hqueue
    have hold : v ∈ trail.nodes := (List.mem_append.mp hv).resolve_right hqueue.2
    rw [deepened_of_mem_nodes hold]
    exact h.taken_take hsearch hold hqueue.1 hw

end Levelled

/-- When the goal is at the front of the queue, or nothing is left in it, no way from a node of the trail
to the goal leads there in less steps than the depth says. -/
theorem Levelled.depth_goal_le (h : Levelled next start depth trail queue)
    (hsearch : Searching next members start trail queue) (hend : queue.head? = some goal ∨ queue = [])
    {v bound : Nat} (hv : v ∈ trail.nodes) (hbound : depth v ≤ bound) (way : List Nat)
    (hchain : (v :: way).IsChain (Leads next)) (hlast : (v :: way).getLast? = some goal) :
    depth goal ≤ bound + way.length := by
  induction way generalizing v bound with
  | nil =>
    obtain rfl : v = goal := by simpa using hlast
    exact hbound
  | cons w way ih =>
    obtain ⟨hstep, hchain⟩ := List.isChain_cons_cons.mp hchain
    by_cases hqueue : v ∈ queue
    · -- nothing in the queue is less deep than the goal at its front
      rcases hend with hhead | rfl
      · obtain ⟨rest, rfl⟩ : ∃ rest, queue = goal :: rest := List.head?_eq_some_iff.mp hhead
        have hle : depth goal ≤ depth v := by
          rcases List.mem_cons.mp hqueue with rfl | hrest
          · exact Nat.le_refl _
          · exact (List.pairwise_cons.mp h.ascending).1 v hrest
        omega
      · cases hqueue
    · have hw : w ∈ trail.nodes := hsearch.taken_closed v hv hqueue w hstep
      have hdepth := h.taken v hv hqueue w hstep
      have := ih hw (Nat.le_trans hdepth (Nat.succ_le_succ hbound)) hchain (by simpa using hlast)
      rw [List.length_cons]
      omega

/-- Following a trail takes no more steps than the depth says. -/
theorem length_followTrail_le
    (h : ∀ node before, (trail.lookup node).join = some before → depth node = depth before + 1)
    (fuel node : Nat) : (followTrail trail fuel node).length ≤ depth node + 1 := by
  induction fuel generalizing node with
  | zero => exact Nat.zero_le _
  | succ fuel ih =>
    rw [followTrail, List.length_cons]
    split
    · next before hbefore =>
      rw [h node before hbefore]
      exact Nat.succ_le_succ (ih before)
    · exact Nat.succ_le_succ (Nat.zero_le _)

/-! ## Shortest ways -/

/-- No way between two members of a component, within it, is shorter than the one that is found. -/
theorem length_shortestPath_le (hstart : start ∈ members) {way : List Nat}
    (hchain : (start :: way).IsChain (Leads (inside next members)))
    (hlast : (start :: way).getLast? = some goal) :
    (shortestPath next members start goal).length ≤ (start :: way).length := by
  have hnext : ∀ v, ∀ w ∈ inside next members v, w ∈ members := fun _ _ hw => (mem_inside.mp hw).2
  obtain ⟨queue, hsearch, ⟨depth, hlevels⟩, hend⟩ := (searching_start hstart).searchTrail_spec
    (P := fun trail queue => ∃ depth, Levelled (inside next members) start depth trail queue)
    ⟨_, levelled_start _ start⟩ goal members.length hnext
    (fun _ _ _ hsearch ⟨_, hlevels⟩ => ⟨_, hlevels.take hsearch⟩) (by simp)
  have hdepth : depth goal ≤ 0 + way.length := hlevels.depth_goal_le hsearch hend
    hsearch.isTrail.start_mem hlevels.start_eq.le way hchain hlast
  have hfollow := length_followTrail_le hlevels.reached (members.length + 1) goal
  rw [shortestPath_eq, List.length_reverse, List.length_cons]
  omega

/-! ## Shortest loops -/

/-- What lies on a way from a member of a component back to it is in the component. -/
theorem IsComponent.mem_of_isChain (h : IsComponent next members) {source : Nat}
    (hsource : source ∈ members) {rest : List Nat}
    (hchain : (source :: rest ++ [source]).IsChain (Leads next)) : ∀ v ∈ rest, v ∈ members := by
  intro v hv
  obtain ⟨before, after, rfl⟩ := List.append_of_mem hv
  have hsplit : source :: (before ++ v :: after) ++ [source]
      = (source :: before ++ [v]) ++ (after ++ [source]) := by simp
  have hsplit' : source :: (before ++ v :: after) ++ [source]
      = (source :: before) ++ (v :: after ++ [source]) := by simp
  refine (h.mem_iff source hsource v).mpr ⟨?_, ?_⟩
  · rw [hsplit] at hchain
    exact List.relationReflTransGen_of_exists_isChain_cons _ hchain.left_of_append (by simp)
  · rw [hsplit'] at hchain
    exact List.relationReflTransGen_of_exists_isChain_cons _ hchain.right_of_append (by simp)

/-- No chain of steps that starts with a step of a component and comes back is shorter than the loop
that is found from this step. -/
theorem length_loopThrough_le (h : IsComponent next members) {source target : Nat}
    (hsource : source ∈ members) {rest : List Nat} (hhead : (rest ++ [source]).head? = some target)
    (hchain : (source :: rest ++ [source]).IsChain (Leads next)) :
    (loopThrough next members source target).length ≤ (source :: rest).length := by
  have hrest := h.mem_of_isChain hsource hchain
  unfold loopThrough
  by_cases heq : target = source
  · simp [heq]
  · have hbeq : (target == source) = false := by simpa using heq
    simp only [hbeq, Bool.false_eq_true, if_false]
    obtain ⟨way, rfl⟩ : ∃ way, rest = target :: way := by
      cases rest with
      | nil => exact absurd (by simpa using hhead.symm) heq
      | cons w way => exact ⟨way, by rw [show w = target by simpa using hhead]⟩
    have hinside : (target :: (way ++ [source])).IsChain (Leads (inside next members)) := by
      refine (List.isChain_cons_cons.mp hchain).2.imp_of_mem_imp fun a b _ hb hab => ?_
      refine mem_inside.mpr ⟨hab, ?_⟩
      rw [← List.cons_append] at hb
      rcases List.mem_append.mp hb with hb | hb
      · exact hrest b hb
      · exact List.mem_singleton.mp hb ▸ hsource
    have hlast : (target :: (way ++ [source])).getLast? = some source := by
      rw [← List.cons_append, List.getLast?_concat]
    have hle := length_shortestPath_le (hrest target List.mem_cons_self) hinside hlast
    simp only [List.length_cons, List.length_append, List.length_dropLast, List.length_nil] at hle ⊢
    omega

end TypstLint.ImportGraph
