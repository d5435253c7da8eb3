import Mathlib.Data.List.Rotate
import Mathlib.Data.String.Basic
import TypstLint.Proofs.ImportGraph.Components
import TypstLint.Proofs.ImportGraph.Loops

set_option autoImplicit false

/-! # The loops of a graph

Every loop that is found starts at the node whose path comes first (`IsTurnedLoop`). The steps that count
as covered are always steps of found loops, and every loop was found from a step that none of the loops
before it had; this is the invariant `LoopsFound`. So every step within a component is on a loop, and
there are at most as many loops as steps (`loopsWithin_spec`). -/

namespace TypstLint.ImportGraph

variable {g : ImportGraph} {next : Nat → List Nat} {members : List Nat}

/-! ## Turning loops -/

theorem stepsOf_eq_zip_rotate (loop : List Nat) : stepsOf loop = loop.zip (loop.rotate 1) := by
  cases loop with
  | nil => rfl
  | cons a rest => simp [stepsOf]

theorem stepsOf_rotate (loop : List Nat) (k : Nat) :
    stepsOf (loop.rotate k) = (stepsOf loop).rotate k := by
  rw [stepsOf_eq_zip_rotate, stepsOf_eq_zip_rotate]
  have hlength : loop.length = (loop.rotate 1).length := by simp
  calc (loop.rotate k).zip ((loop.rotate k).rotate 1)
      = List.zipWith Prod.mk (loop.rotate k) ((loop.rotate 1).rotate k) := by
        rw [List.rotate_rotate, List.rotate_rotate, Nat.add_comm]
        rfl
    _ = (loop.zip (loop.rotate 1)).rotate k :=
        (List.zipWith_rotate_distrib Prod.mk loop (loop.rotate 1) k hlength).symm

theorem IsLoop.rotate {loop : List Nat} (h : IsLoop next loop) (k : Nat) :
    IsLoop next (loop.rotate k) where
  nonempty := by simpa using h.nonempty
  nodup := List.nodup_rotate.mpr h.nodup
  leads step hstep := by
    rw [stepsOf_rotate, List.mem_rotate] at hstep
    exact h.leads step hstep

/-- The first least element is one of the list, and no other one is less. -/
theorem firstLeast?_spec {α β : Type} [LinearOrder β] {lt : α → α → Bool} {f : α → β}
    (hlt : ∀ a b, lt a b = true ↔ f a < f b) {l : List α} {x : α} (h : firstLeast? lt l = some x) :
    x ∈ l ∧ ∀ y ∈ l, f x ≤ f y := by
  cases l with
  | nil => cases h
  | cons a rest =>
    simp only [firstLeast?, Option.some.injEq] at h
    induction rest generalizing a with
    | nil =>
      obtain rfl : a = x := h
      simp
    | cons b rest ih =>
      rw [List.foldl_cons] at h
      obtain ⟨hmem, hle⟩ := ih _ h
      by_cases hba : lt b a = true
      · simp only [hba, if_true] at hmem hle
        refine ⟨List.mem_cons_of_mem a hmem, fun y hy => ?_⟩
        rcases List.mem_cons.mp hy with rfl | hy
        · exact le_trans (hle b List.mem_cons_self) (le_of_lt ((hlt b y).mp hba))
        · exact hle y hy
      · have hab : f a ≤ f b := not_lt.mp fun hlt' => hba ((hlt b a).mpr hlt')
        simp only [hba, Bool.false_eq_true, if_false] at hmem hle
        refine ⟨?_, fun y hy => ?_⟩
        · rcases List.mem_cons.mp hmem with rfl | hmem
          · exact List.mem_cons_self
          · exact List.mem_cons_of_mem a (List.mem_cons_of_mem b hmem)
        · rcases List.mem_cons.mp hy with rfl | hy
          · exact hle y List.mem_cons_self
          · rcases List.mem_cons.mp hy with rfl | hy
            · exact le_trans (hle a List.mem_cons_self) hab
            · exact hle y (List.mem_cons_of_mem a hy)

theorem firstLeast?_isSome {α : Type} (lt : α → α → Bool) {l : List α} (h : l ≠ []) :
    ∃ x, firstLeast? lt l = some x := by
  cases l with
  | nil => exact absurd rfl h
  | cons a rest => exact ⟨_, rfl⟩

/-- A turned loop is a rotation that starts at the node whose path comes first. -/
theorem rotated_spec {loop : List Nat} (h : loop ≠ []) :
    ∃ k, g.rotated loop = loop.rotate k
      ∧ ∀ a, (g.rotated loop).head? = some a → ∀ v ∈ loop, g.pathOf a ≤ g.pathOf v := by
  obtain ⟨first, hfirst⟩ := firstLeast?_isSome (fun a b => decide (g.pathOf a < g.pathOf b)) h
  obtain ⟨hmem, hle⟩ := firstLeast?_spec (fun _ _ => decide_eq_true_iff) hfirst
  obtain ⟨before, after, rfl, hfresh⟩ := List.eq_append_cons_of_mem hmem
  have heq : g.rotated (before ++ first :: after) = first :: after ++ before := by
    unfold rotated
    rw [hfirst]
    simp only [takeWhile_ne_append after hfresh, dropWhile_ne_append after hfresh]
  refine ⟨before.length, by rw [heq, List.rotate_append_length_eq], fun a ha v hv => ?_⟩
  rw [heq, List.cons_append, List.head?_cons, Option.some.injEq] at ha
  exact ha ▸ hle v hv

/-! ## The loops of a component -/

/-- The files of a component are looked at in the order of their paths. -/
theorem pairwise_mergeSort_pathOf (members : List Nat) :
    (members.mergeSort fun a b => decide (g.pathOf a ≤ g.pathOf b)).Pairwise
      fun a b => g.pathOf a ≤ g.pathOf b := by
  refine (List.pairwise_mergeSort (fun a b c hab hbc => ?_) (fun a b => ?_) members).imp
    of_decide_eq_true
  · exact decide_eq_true (le_trans (of_decide_eq_true hab) (of_decide_eq_true hbc))
  · rw [Bool.or_eq_true, decide_eq_true_iff, decide_eq_true_iff]
    exact le_total _ _

/-- The steps that lie within a component, as they are looked at. -/
theorem mem_stepsWithin {a b : Nat} :
    (a, b) ∈ g.stepsWithin members ↔ a ∈ members ∧ b ∈ members ∧ g.Imports a b := by
  have hedges : ∀ node e, e ∈ g.sortedEdges node ↔ e ∈ g.edges ∧ e.source = node := by
    intro node e
    rw [sortedEdges, List.mem_mergeSort, mem_outgoing]
  simp only [stepsWithin, List.mem_flatMap, List.mem_mergeSort, List.mem_map, List.mem_filter,
    List.mem_filterMap, hedges, List.contains_iff_mem, Prod.mk.injEq, Imports]
  constructor
  · rintro ⟨a, ha, b, ⟨⟨e, ⟨he, hsource⟩, htarget⟩, hb⟩, rfl, rfl⟩
    exact ⟨ha, hb, e, he, hsource, htarget⟩
  · rintro ⟨ha, hb, e, he, hsource, htarget⟩
    exact ⟨a, ha, b, ⟨⟨e, ⟨he, hsource⟩, htarget⟩, hb⟩, rfl, rfl⟩

/-- A loop among some nodes that starts at the node whose path comes first. -/
structure IsTurnedLoop (g : ImportGraph) (members loop : List Nat) : Prop where
  isLoop : IsLoop g.successors loop
  mem_members : ∀ v ∈ loop, v ∈ members
  head_le : ∀ a, loop.head? = some a → ∀ v ∈ loop, g.pathOf a ≤ g.pathOf v

/-- What is true of the loops found so far and the steps that count as covered, when some steps were
looked at. The witnesses of `origins` are the steps from which the loops were found. -/
structure LoopsFound (g : ImportGraph) (members : List Nat) (seen : List (Nat × Nat))
    (found : List (List Nat) × List (Nat × Nat)) : Prop where
  turned : ∀ loop ∈ found.1, IsTurnedLoop g members loop
  covered_mem : ∀ step ∈ found.2, ∃ loop ∈ found.1, step ∈ stepsOf loop
  seen_covered : ∀ step ∈ seen, step ∈ found.2
  origins : ∃ steps : List (Nat × Nat), steps.length = found.1.length ∧ steps.Nodup
    ∧ ∀ step ∈ steps, step ∈ found.2 ∧ step ∈ seen

/-- A step of a loop that was found gives no other one. -/
theorem LoopsFound.skip {seen : List (Nat × Nat)} {found : List (List Nat) × List (Nat × Nat)}
    (h : LoopsFound g members seen found) {step : Nat × Nat} (hcovered : step ∈ found.2) :
    LoopsFound g members (step :: seen) found := by
  obtain ⟨steps, hlength, hnodup, hsteps⟩ := h.origins
  refine { h with seen_covered := ?_, origins := ⟨steps, hlength, hnodup, ?_⟩ }
  · intro st hst
    rcases List.mem_cons.mp hst with rfl | hst
    · exact hcovered
    · exact h.seen_covered st hst
  · intro st hst
    exact ⟨(hsteps st hst).1, List.mem_cons_of_mem _ (hsteps st hst).2⟩

/-- A loop through a step that is not covered is added. -/
theorem LoopsFound.cons {seen covered : List (Nat × Nat)} {loops : List (List Nat)}
    (h : LoopsFound g members seen (loops, covered)) {step : Nat × Nat} {loop : List Nat}
    (hfresh : step ∉ covered) (hloop : IsLoop g.successors loop) (hstep : step ∈ stepsOf loop)
    (hwithin : ∀ v ∈ loop, v ∈ members) :
    LoopsFound g members (step :: seen) (g.rotated loop :: loops, stepsOf loop ++ covered) := by
  obtain ⟨k, hrotated, hhead⟩ := g.rotated_spec hloop.nonempty
  obtain ⟨steps, hlength, hnodup, hsteps⟩ := h.origins
  refine
    { turned := ?turned
      covered_mem := ?covered_mem
      seen_covered := ?seen_covered
      origins := ⟨step :: steps, by simp [hlength], ?nodup, ?mem⟩ }
  case turned =>
    intro l hl
    rcases List.mem_cons.mp hl with rfl | hl
    · refine ⟨hrotated ▸ hloop.rotate k, fun v hv => ?_, fun a ha v hv => ?_⟩
      · rw [hrotated, List.mem_rotate] at hv
        exact hwithin v hv
      · rw [hrotated, List.mem_rotate] at hv
        exact hhead a ha v hv
    · exact h.turned l hl
  case covered_mem =>
    intro st hst
    rcases List.mem_append.mp hst with hst | hst
    · exact ⟨g.rotated loop, List.mem_cons_self, by rwa [hrotated, stepsOf_rotate, List.mem_rotate]⟩
    · obtain ⟨l, hl, hmem⟩ := h.covered_mem st hst
      exact ⟨l, List.mem_cons_of_mem _ hl, hmem⟩
  case seen_covered =>
    intro st hst
    rcases List.mem_cons.mp hst with rfl | hst
    · exact List.mem_append_left _ hstep
    · exact List.mem_append_right _ (h.seen_covered st hst)
  case nodup =>
    -- the origins of older loops are covered, and this step is not
    exact List.nodup_cons.mpr ⟨fun hold => hfresh (hsteps step hold).1, hnodup⟩
  case mem =>
    intro st hst
    rcases List.mem_cons.mp hst with rfl | hst
    · exact ⟨List.mem_append_left _ hstep, List.mem_cons_self⟩
    · exact ⟨List.mem_append_right _ (hsteps st hst).1, List.mem_cons_of_mem _ (hsteps st hst).2⟩

/-- Looking at a step keeps the invariant of the loops. -/
theorem LoopsFound.addLoop {seen : List (Nat × Nat)} {found : List (List Nat) × List (Nat × Nat)}
    (h : LoopsFound g members seen found) (hmembers : IsComponent g.successors members)
    {step : Nat × Nat} (hstep : step ∈ g.stepsWithin members) :
    LoopsFound g members (step :: seen) (g.addLoop g.successors members found step) := by
  obtain ⟨loops, covered⟩ := found
  obtain ⟨source, target⟩ := step
  unfold ImportGraph.addLoop
  by_cases hcovered : (source, target) ∈ covered
  · simp only [List.contains_iff_mem, hcovered, if_true]
    exact h.skip hcovered
  · simp only [List.contains_iff_mem, hcovered, if_false]
    obtain ⟨hsource, htarget, himports⟩ := mem_stepsWithin.mp hstep
    obtain ⟨hloop, hmem, hwithin⟩ :=
      loopThrough_spec hmembers hsource htarget (mem_successors.mpr himports)
    exact h.cons hcovered hloop hmem hwithin

/-- Looking at steps one after the other keeps the invariant of the loops. -/
theorem LoopsFound.foldl_addLoop {seen : List (Nat × Nat)}
    {found : List (List Nat) × List (Nat × Nat)} (h : LoopsFound g members seen found)
    (hmembers : IsComponent g.successors members) (steps : List (Nat × Nat))
    (hsteps : ∀ step ∈ steps, step ∈ g.stepsWithin members) :
    LoopsFound g members (steps.reverse ++ seen)
      (steps.foldl (g.addLoop g.successors members) found) := by
  induction steps generalizing seen found with
  | nil => simpa using h
  | cons step rest ih =>
    have := ih (h.addLoop hmembers (hsteps step List.mem_cons_self))
      fun st hst => hsteps st (List.mem_cons_of_mem step hst)
    simpa using this

/-- The loops of a component are loops within it, every step within it is part of one, and there are
not more of them than steps. -/
theorem loopsWithin_spec (hmembers : IsComponent g.successors members) :
    (∀ loop ∈ g.loopsWithin g.successors members, IsTurnedLoop g members loop)
      ∧ (∀ a ∈ members, ∀ b ∈ members, g.Imports a b →
        ∃ loop ∈ g.loopsWithin g.successors members, (a, b) ∈ stepsOf loop)
      ∧ ∃ steps : List (Nat × Nat), steps.length = (g.loopsWithin g.successors members).length
        ∧ steps.Nodup ∧ ∀ step ∈ steps, step.1 ∈ members ∧ g.Imports step.1 step.2 := by
  have start : LoopsFound g members [] ([], []) :=
    ⟨by simp, by simp, by simp, [], rfl, .nil, by simp⟩
  have found := start.foldl_addLoop hmembers (g.stepsWithin members) fun _ h => h
  refine ⟨found.turned, fun a ha b hb himports => ?_, ?_⟩
  · refine found.covered_mem (a, b) (found.seen_covered (a, b) ?_)
    simpa using mem_stepsWithin.mpr ⟨ha, hb, himports⟩
  · obtain ⟨steps, hlength, hnodup, hsteps⟩ := found.origins
    refine ⟨steps, hlength, hnodup, fun step hstep => ?_⟩
    have hmem : step ∈ g.stepsWithin members := by simpa using (hsteps step hstep).2
    obtain ⟨hsource, -, himports⟩ := mem_stepsWithin.mp (show (step.1, step.2) ∈ _ from hmem)
    exact ⟨hsource, himports⟩

/-! ## The loops of a graph -/

theorem loops_eq (hg : g.WellFormed) :
    g.loops = g.components.flatMap fun members => (g.loopsWithin g.successors members).reverse := by
  have htable := getD_successorTable hg
  simp only [loops, htable]

/-- Every loop is one of a component. -/
theorem isTurnedLoop_of_mem_loops (hg : g.WellFormed) {loop : List Nat} (h : loop ∈ g.loops) :
    ∃ members ∈ g.components, IsTurnedLoop g members loop := by
  rw [loops_eq hg, List.mem_flatMap] at h
  obtain ⟨members, hmembers, hloop⟩ := h
  have hcomponent := (components_spec hg).1 members hmembers
  exact ⟨members, hmembers, (loopsWithin_spec hcomponent).1 loop (List.mem_reverse.mp hloop)⟩

/-- Every step within a component is part of a loop. -/
theorem exists_loop_of_imports (hg : g.WellFormed) {a b : Nat} (h : g.Imports a b)
    (hsame : g.SameComponent a b) : ∃ loop ∈ g.loops, (a, b) ∈ stepsOf loop := by
  obtain ⟨hcomponents, -, hmem⟩ := components_spec hg
  obtain ⟨members, hmembers, ha⟩ := List.mem_flatten.mp ((hmem a).mpr (h.lt_length hg).1)
  have hcomponent := hcomponents members hmembers
  have hb := (sameComponent_iff hcomponent ha b).mp hsame
  obtain ⟨loop, hloop, hstep⟩ := (loopsWithin_spec hcomponent).2.1 a ha b hb h
  refine ⟨loop, ?_, hstep⟩
  rw [loops_eq hg, List.mem_flatMap]
  exact ⟨members, hmembers, List.mem_reverse.mpr hloop⟩

/-- The loops of different components were found from different steps. -/
theorem exists_origins (hg : g.WellFormed) :
    ∃ steps : List (Nat × Nat), steps.length = g.loops.length ∧ steps.Nodup
      ∧ ∀ step ∈ steps, g.Imports step.1 step.2 := by
  obtain ⟨hcomponents, hnodup, -⟩ := components_spec hg
  rw [loops_eq hg]
  suffices hsuff : ∃ steps : List (Nat × Nat), steps.length
      = (g.components.flatMap fun members => (g.loopsWithin g.successors members).reverse).length
      ∧ steps.Nodup ∧ ∀ step ∈ steps, step.1 ∈ g.components.flatten ∧ g.Imports step.1 step.2 by
    obtain ⟨steps, hlength, hsteps, himports⟩ := hsuff
    exact ⟨steps, hlength, hsteps, fun step hstep => (himports step hstep).2⟩
  generalize g.components = components at hcomponents hnodup
  induction components with
  | nil => exact ⟨[], rfl, .nil, by simp⟩
  | cons members rest ih =>
    rw [List.flatten_cons, List.nodup_append] at hnodup
    obtain ⟨-, hrest, hdisjoint⟩ := hnodup
    obtain ⟨steps, hlength, hsteps, himports⟩ :=
      ih (fun c hc => hcomponents c (List.mem_cons_of_mem members hc)) hrest
    obtain ⟨-, -, new, hnewlength, hnewsteps, hnew⟩ :=
      loopsWithin_spec (hcomponents members List.mem_cons_self)
    refine ⟨new ++ steps, by simp [hlength, hnewlength], ?_, ?_⟩
    · -- steps of different components start at different nodes
      refine List.nodup_append.mpr ⟨hnewsteps, hsteps, ?_⟩
      rintro a ha b hb rfl
      exact hdisjoint a.1 (hnew a ha).1 a.1 (himports a hb).1 rfl
    · intro step hstep
      rw [List.flatten_cons, List.mem_append]
      rcases List.mem_append.mp hstep with hstep | hstep
      · exact ⟨.inl (hnew step hstep).1, (hnew step hstep).2⟩
      · exact ⟨.inr (himports step hstep).1, (himports step hstep).2⟩

end TypstLint.ImportGraph
