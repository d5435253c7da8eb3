import Mathlib.Data.Finset.Card
import Mathlib.Data.Finset.Range
import Mathlib.Logic.Relation
import TypstLint.ImportGraph.Components
import TypstLint.Proofs.Distinct

set_option autoImplicit false

/-! # The invariant of the search for components

A search keeps `Consistent`: the nodes on its stack are those that are entered, in the order of their
numbers, and every finished component is a strongly connected component. The nodes on the way from the
root to the node that is visited are the *path*. A node of the path reaches every node above it on the
stack, and every node on the stack reaches a node of the path that is not above it.

`visit_spec` says what a visit does to such a search: it leaves the stack below alone, and the number
that it returns is the least one of a node on that stack to which a node that it put there leads. -/

namespace TypstLint.ImportGraph

open Relation (ReflTransGen)

variable {next : Nat → List Nat} {size : Nat}

/-- A node leads to its successors. -/
def Leads (next : Nat → List Nat) (a b : Nat) : Prop := b ∈ next a

/-- A node reaches another one in any number of steps. -/
abbrev Reaches (next : Nat → List Nat) : Nat → Nat → Prop := ReflTransGen (Leads next)

/-- A strongly connected component: whatever a member reaches and is reached by is a member. -/
structure IsComponent (next : Nat → List Nat) (component : List Nat) : Prop where
  nonempty : component ≠ []
  mem_iff : ∀ a ∈ component, ∀ b, b ∈ component ↔ Reaches next a b ∧ Reaches next b a

/-- A set that no step leaves is not left in any number of steps. -/
theorem mem_of_reaches {p : Nat → Prop} (closed : ∀ a, p a → ∀ b ∈ next a, p b) {a b : Nat}
    (ha : p a) (h : Reaches next a b) : p b := by
  induction h with
  | refl => exact ha
  | tail _ step ih => exact closed _ ih _ step

namespace Search

/-! ## Marks -/

theorem markOf_start (v : Nat) : (start size).markOf v = if v < size then .unseen else .done := by
  unfold markOf start
  by_cases h : v < size
  · simp [h]
  · simp [h]

theorem markOf_enter {s : Search} {x : Nat} (hx : x < s.marks.size) (v : Nat) :
    (s.enter x).markOf v = if v = x then .entered s.count else s.markOf v := by
  unfold markOf enter
  by_cases h : v = x
  · subst h
    simp [hx]
  · have : x ≠ v := fun e => h e.symm
    simp [this, h]

theorem lt_size_of_markOf_ne_done {s : Search} {v : Nat} (h : s.markOf v ≠ .done) :
    v < s.marks.size := by
  by_contra hv
  exact h (by simp [markOf, Array.getElem?_eq_none (Nat.le_of_not_lt hv)])

theorem lt_size_of_unseen {s : Search} {v : Nat} (h : s.markOf v = .unseen) : v < s.marks.size :=
  lt_size_of_markOf_ne_done (by simp [h])

theorem markOf_setDone (component : List Nat) (marks : Array Mark) (v : Nat) :
    ((component.foldl (fun marks n => marks.setIfInBounds n .done) marks)[v]?).getD .done
      = if v ∈ component then .done else (marks[v]?).getD .done := by
  induction component generalizing marks with
  | nil => simp
  | cons n rest ih =>
    rw [List.foldl_cons, ih]
    by_cases hv : v ∈ rest
    · simp [hv]
    · by_cases hn : v = n
      · subst hn
        by_cases hlt : v < marks.size <;> simp [hv, hlt]
      · have : n ≠ v := fun e => hn e.symm
        simp [hv, hn, this]

theorem size_setDone (component : List Nat) (marks : Array Mark) :
    (component.foldl (fun marks n => marks.setIfInBounds n Mark.done) marks).size = marks.size := by
  induction component generalizing marks with
  | nil => rfl
  | cons n rest ih => rw [List.foldl_cons, ih, Array.size_setIfInBounds]

/-- What `finish` does to a stack that is split at the node. -/
theorem finish_of_stack {s : Search} {x : Nat} {new old : List Nat} (hs : s.stack = new ++ x :: old)
    (hx : x ∉ new) :
    (s.finish x).stack = old ∧ (s.finish x).components = (new ++ [x]) :: s.components
      ∧ (s.finish x).count = s.count ∧ (s.finish x).marks.size = s.marks.size
      ∧ ∀ v, (s.finish x).markOf v = if v ∈ new ++ [x] then .done else s.markOf v := by
  have above : s.stack.takeWhile (· != x) = new := by rw [hs, takeWhile_ne_append old hx]
  refine ⟨?_, ?_, rfl, ?_, ?_⟩
  · simp only [finish, above]
    rw [hs]
    simp
  · simp [finish, above]
  · simp only [finish, above]
    exact size_setDone _ _
  · intro v
    simp only [finish, above, markOf]
    exact markOf_setDone _ _ v

/-! ## The invariant -/

/-- What is true of a search whenever `path` leads from the root to the node that is visited. -/
structure Consistent (next : Nat → List Nat) (size : Nat) (path : List Nat) (s : Search) : Prop where
  size_eq : s.marks.size = size
  mem_stack : ∀ v, v ∈ s.stack ↔ ∃ k, s.markOf v = .entered k
  lt_count : ∀ v k, s.markOf v = .entered k → k < s.count
  descending : s.stack.Pairwise fun a b =>
    ∀ j k, s.markOf a = .entered j → s.markOf b = .entered k → k < j
  path_entered : ∀ x ∈ path, x ∈ s.stack
  path_reaches : ∀ x ∈ path, ∀ y j k, s.markOf x = .entered j → s.markOf y = .entered k → j ≤ k →
    Reaches next x y
  reaches_path : ∀ y k, s.markOf y = .entered k →
    ∃ x ∈ path, ∃ j, s.markOf x = .entered j ∧ j ≤ k ∧ Reaches next y x
  seen_closed : ∀ v, s.markOf v ≠ .unseen → v ∉ path → ∀ w ∈ next v, s.markOf w ≠ .unseen
  done_closed : ∀ v, s.markOf v = .done → ∀ w ∈ next v, s.markOf w = .done
  mem_components : ∀ v, v ∈ s.components.flatten ↔ v < size ∧ s.markOf v = .done
  components_nodup : s.components.flatten.Nodup
  isComponent : ∀ c ∈ s.components, IsComponent next c
  ordered : s.components.Pairwise fun later earlier => ∀ a ∈ earlier, ∀ b ∈ next a, b ∉ later

/-- What a search keeps of an earlier one while it visits further nodes. -/
structure Grows (s t : Search) : Prop where
  size_eq : t.marks.size = s.marks.size
  stack_eq : ∃ new, t.stack = new ++ s.stack
  markOf_eq : ∀ v, s.markOf v ≠ .unseen → t.markOf v = s.markOf v
  count_le : s.count ≤ t.count
  count_le_number : ∀ v k, s.markOf v = .unseen → t.markOf v = .entered k → s.count ≤ k

namespace Grows

variable {s t u : Search}

theorem refl (s : Search) : Grows s s where
  size_eq := rfl
  stack_eq := ⟨[], rfl⟩
  markOf_eq _ _ := rfl
  count_le := Nat.le_refl _
  count_le_number v k h h' := by simp [h] at h'

theorem trans (h : Grows s t) (h' : Grows t u) : Grows s u where
  size_eq := h'.size_eq.trans h.size_eq
  stack_eq := by
    obtain ⟨new, hnew⟩ := h.stack_eq
    obtain ⟨new', hnew'⟩ := h'.stack_eq
    exact ⟨new' ++ new, by rw [hnew', hnew, List.append_assoc]⟩
  markOf_eq v hv := by
    have ht := h.markOf_eq v hv
    rw [h'.markOf_eq v (by rw [ht]; exact hv), ht]
  count_le := Nat.le_trans h.count_le h'.count_le
  count_le_number v k hv hk := by
    by_cases ht : t.markOf v = .unseen
    · exact Nat.le_trans h.count_le (h'.count_le_number v k ht hk)
    · rw [h'.markOf_eq v ht] at hk
      exact h.count_le_number v k hv hk

theorem entered (h : Grows s t) {v k : Nat} (hv : s.markOf v = .entered k) :
    t.markOf v = .entered k := by
  rw [h.markOf_eq v (by simp [hv]), hv]

theorem ne_unseen (h : Grows s t) {v : Nat} (hv : s.markOf v ≠ .unseen) : t.markOf v ≠ .unseen := by
  rw [h.markOf_eq v hv]
  exact hv

/-- A node with a number that was given out before was on the stack before. -/
theorem entered_of_lt (h : Grows s t) {v k : Nat} (hv : t.markOf v = .entered k) (hk : k < s.count) :
    s.markOf v = .entered k := by
  by_cases hs : s.markOf v = .unseen
  · exact absurd (h.count_le_number v k hs hv) (Nat.not_le_of_lt hk)
  · rw [← h.markOf_eq v hs, hv]

theorem enter {x : Nat} (hx : s.markOf x = .unseen) : Grows s (s.enter x) := by
  have hlt : x < s.marks.size := lt_size_of_unseen hx
  refine ⟨by simp [Search.enter], ⟨[x], rfl⟩, ?_, Nat.le_succ _, ?_⟩
  · intro v hv
    have : v ≠ x := fun e => hv (e ▸ hx)
    rw [markOf_enter hlt, if_neg this]
  · intro v k hv hk
    rw [markOf_enter hlt] at hk
    split at hk
    · simp only [Mark.entered.injEq] at hk
      omega
    · simp [hv] at hk

end Grows

/-! ## How many nodes are left -/

/-- The nodes that were not met. -/
def unseen (s : Search) : Finset Nat := (Finset.range s.marks.size).filter fun v => s.markOf v = .unseen

/-- The number of nodes that were not met. -/
def unseenCount (s : Search) : Nat := s.unseen.card

theorem unseenCount_le_size (s : Search) : s.unseenCount ≤ s.marks.size :=
  (Finset.card_filter_le _ _).trans_eq (Finset.card_range _)

theorem unseen_subset {s t : Search} (h : Grows s t) : t.unseen ⊆ s.unseen := by
  intro v hv
  simp only [unseen, Finset.mem_filter, Finset.mem_range, h.size_eq] at hv ⊢
  refine ⟨hv.1, ?_⟩
  by_contra hs
  exact h.ne_unseen hs hv.2

theorem unseenCount_le {s t : Search} (h : Grows s t) : t.unseenCount ≤ s.unseenCount :=
  Finset.card_le_card (unseen_subset h)

theorem unseenCount_enter_lt {s : Search} {x : Nat} (hx : s.markOf x = .unseen) :
    (s.enter x).unseenCount < s.unseenCount := by
  have hlt := lt_size_of_unseen hx
  refine Finset.card_lt_card ((Finset.ssubset_iff_of_subset (unseen_subset (.enter hx))).mpr ⟨x, ?_, ?_⟩)
  · simp [unseen, hx, hlt]
  · simp [unseen, markOf_enter hlt]

end Search

end TypstLint.ImportGraph
