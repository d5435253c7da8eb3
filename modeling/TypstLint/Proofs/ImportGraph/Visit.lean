import TypstLint.Proofs.ImportGraph.Search

set_option autoImplicit false

/-! # Visits keep the invariant of the search

A visit enters its node, goes on to the children one after the other, and then either leaves the node
on the stack or takes the nodes down to it off as a component. `Scanned` is the invariant of the loop
over the children; `visit_spec` is proved from it by induction on the fuel, of which the nodes that
were not met are enough. -/

namespace TypstLint.ImportGraph.Search

open Relation (ReflTransGen)

variable {next : Nat → List Nat} {size x : Nat} {path : List Nat} {s t u : Search}

theorem Consistent.lt_size {v k : Nat} (h : Consistent next size path s)
    (hv : s.markOf v = .entered k) : v < size := by
  rw [← h.size_eq]
  exact lt_size_of_markOf_ne_done (by simp [hv])

theorem Consistent.stack_nodup (h : Consistent next size path s) : s.stack.Nodup := by
  refine h.descending.imp_of_mem fun {a b} ha _ hab e => ?_
  obtain ⟨k, hk⟩ := (h.mem_stack a).mp ha
  subst e
  exact absurd (hab k k hk hk) (Nat.lt_irrefl k)

/-! ## Entering a node -/

theorem Consistent.enter (h : Consistent next size path s) (hx : s.markOf x = .unseen)
    (reach : ∀ y ∈ path, Reaches next y x) : Consistent next size (x :: path) (s.enter x) := by
  have hlt : x < s.marks.size := lt_size_of_unseen hx
  have mark := markOf_enter hlt
  have ne_of_entered : ∀ v k, s.markOf v = .entered k → v ≠ x := by
    intro v k hv e
    simp [e, hx] at hv
  have fresh : x ∉ s.stack := by
    intro hmem
    obtain ⟨k, hk⟩ := (h.mem_stack x).mp hmem
    exact ne_of_entered x k hk rfl
  have keeps : ∀ v k, s.markOf v = .entered k → (s.enter x).markOf v = .entered k := by
    intro v k hv
    rw [mark, if_neg (ne_of_entered v k hv), hv]
  refine
    { size_eq := by rw [(Grows.enter hx).size_eq, h.size_eq]
      mem_stack := ?mem_stack
      lt_count := ?lt_count
      descending := ?descending
      path_entered := ?path_entered
      path_reaches := ?path_reaches
      reaches_path := ?reaches_path
      seen_closed := ?seen_closed
      done_closed := ?done_closed
      mem_components := ?mem_components
      components_nodup := h.components_nodup
      isComponent := h.isComponent
      ordered := h.ordered }
  case mem_stack =>
    intro v
    rw [mark]
    by_cases hv : v = x
    · simp [hv, Search.enter]
    · simp [hv, Search.enter, h.mem_stack]
  case lt_count =>
    intro v k hv
    rw [mark] at hv
    show k < s.count + 1
    split at hv
    · simp only [Mark.entered.injEq] at hv
      omega
    · exact Nat.lt_succ_of_lt (h.lt_count v k hv)
  case descending =>
    refine List.pairwise_cons.mpr ⟨?_, ?_⟩
    · intro b hb j k hj hk
      have hbx : b ≠ x := fun e => fresh (e ▸ hb)
      rw [mark, if_pos rfl, Mark.entered.injEq] at hj
      rw [mark, if_neg hbx] at hk
      exact hj ▸ h.lt_count b k hk
    · refine h.descending.imp_of_mem fun {a b} ha hb hab j k hj hk => ?_
      have hax : a ≠ x := fun e => fresh (e ▸ ha)
      have hbx : b ≠ x := fun e => fresh (e ▸ hb)
      rw [mark, if_neg hax] at hj
      rw [mark, if_neg hbx] at hk
      exact hab j k hj hk
  case path_entered =>
    intro y hy
    rcases List.mem_cons.mp hy with rfl | hy
    · exact List.mem_cons_self
    · exact List.mem_cons_of_mem x (h.path_entered y hy)
  case path_reaches =>
    intro y hy z j k hj hk hjk
    rw [mark] at hj hk
    -- `x` has the greatest number, so it reaches itself and is reached by the rest of the path
    by_cases hz : z = x
    · subst hz
      rcases List.mem_cons.mp hy with rfl | hy
      · exact .refl
      · exact reach y hy
    · rw [if_neg hz] at hk
      by_cases hyx : y = x
      · rw [if_pos hyx, Mark.entered.injEq] at hj
        have := h.lt_count z k hk
        omega
      · rw [if_neg hyx] at hj
        exact h.path_reaches y ((List.mem_cons.mp hy).resolve_left hyx) z j k hj hk hjk
  case reaches_path =>
    intro y k hk
    rw [mark] at hk
    by_cases hy : y = x
    · subst hy
      exact ⟨y, List.mem_cons_self, k, by rw [mark]; exact hk, Nat.le_refl k, .refl⟩
    · rw [if_neg hy] at hk
      obtain ⟨z, hz, j, hj, hjk, hyz⟩ := h.reaches_path y k hk
      exact ⟨z, List.mem_cons_of_mem x hz, j, keeps z j hj, hjk, hyz⟩
  case seen_closed =>
    intro v hv hpath w hw
    have hvx : v ≠ x := fun e => hpath (e ▸ List.mem_cons_self)
    rw [mark, if_neg hvx] at hv
    exact (Grows.enter hx).ne_unseen
      (h.seen_closed v hv (fun hmem => hpath (List.mem_cons_of_mem x hmem)) w hw)
  case done_closed =>
    intro v hv w hw
    rw [mark] at hv
    split at hv
    · cases hv
    · have hwd := h.done_closed v hv w hw
      rw [(Grows.enter hx).markOf_eq w (by simp [hwd]), hwd]
  case mem_components =>
    intro v
    rw [mark]
    by_cases hv : v = x
    · subst hv
      have : v ∉ s.components.flatten := by
        rw [h.mem_components]
        simp [hx]
      simpa [Search.enter] using this
    · rw [if_neg hv]
      exact h.mem_components v

/-! ## Going on to the children -/

/-- What a visit of `x` does to a search in which `path` leads to `x`. -/
structure Visited (next : Nat → List Nat) (size : Nat) (path : List Nat) (s : Search) (x : Nat)
    (low : Option Nat) (t : Search) : Prop where
  consistent : Consistent next size path t
  grows : Grows s t
  seen : t.markOf x ≠ .unseen
  low_reached : ∀ n, low = some n → ∃ y, s.markOf y = .entered n ∧ Reaches next x y
  low_le : ∀ v j, s.markOf v = .unseen → t.markOf v = .entered j →
    ∀ w ∈ next v, ∀ k, s.markOf w = .entered k → ∃ n, low = some n ∧ n ≤ k

/-- What is true while `x` is visited and the children `scanned` were met, where `s` is the search
before `x` was entered and `n` the least number met. -/
structure Scanned (next : Nat → List Nat) (size : Nat) (path : List Nat) (s : Search) (x : Nat)
    (scanned : List Nat) (n : Nat) (t : Search) : Prop where
  consistent : Consistent next size (x :: path) t
  grows : Grows (s.enter x) t
  le_count : n ≤ s.count
  reached : n < s.count → ∃ y, s.markOf y = .entered n ∧ Reaches next x y
  le_number : ∀ v j, v ≠ x → s.markOf v = .unseen → t.markOf v = .entered j →
    ∀ w ∈ next v, ∀ k, s.markOf w = .entered k → n ≤ k
  scanned_seen : ∀ w ∈ scanned, t.markOf w ≠ .unseen
  le_scanned : ∀ w ∈ scanned, ∀ k, s.markOf w = .entered k → n ≤ k

theorem least_spec (n : Nat) (low : Option Nat) : ∃ m, least (some n) low = some m ∧ m ≤ n
    ∧ (∀ l, low = some l → m ≤ l) ∧ (m = n ∨ low = some m) := by
  cases low with
  | none => exact ⟨n, rfl, Nat.le_refl n, nofun, .inl rfl⟩
  | some l =>
    refine ⟨min n l, rfl, Nat.min_le_left n l, ?_, ?_⟩
    · intro l' hl'
      exact Option.some.inj hl' ▸ Nat.min_le_right n l
    · rcases Nat.le_total n l with hle | hle
      · exact .inl (Nat.min_eq_left hle)
      · exact .inr (by rw [Nat.min_eq_right hle])

section Meeting

variable {scanned : List Nat} {n c : Nat}

/-- A child of a finished component changes nothing. -/
theorem Scanned.meet_done (h : Scanned next size path s x scanned n t) (hx : s.markOf x = .unseen)
    (hmark : t.markOf c = .done) : Scanned next size path s x (c :: scanned) n t := by
  have grows : Grows s t := (Grows.enter hx).trans h.grows
  refine { h with scanned_seen := ?_, le_scanned := ?_ }
  · intro w hw
    rcases List.mem_cons.mp hw with rfl | hw
    · simp [hmark]
    · exact h.scanned_seen w hw
  · intro w hw k hk
    rcases List.mem_cons.mp hw with rfl | hw
    · simp [grows.entered hk] at hmark
    · exact h.le_scanned w hw k hk

/-- A child on the stack may have a lower number. -/
theorem Scanned.meet_entered {k m : Nat} (h : Scanned next size path s x scanned n t)
    (hx : s.markOf x = .unseen) (hc : c ∈ next x) (hmark : t.markOf c = .entered k) (hmn : m ≤ n)
    (hmk : m ≤ k) (hor : m = n ∨ m = k) : Scanned next size path s x (c :: scanned) m t := by
  have grows : Grows s t := (Grows.enter hx).trans h.grows
  refine
    { consistent := h.consistent
      grows := h.grows
      le_count := Nat.le_trans hmn h.le_count
      reached := ?reached
      le_number := fun v j hvx hv hj w hw l hl => Nat.le_trans hmn (h.le_number v j hvx hv hj w hw l hl)
      scanned_seen := ?scanned_seen
      le_scanned := ?le_scanned }
  case reached =>
    intro hlt
    rcases hor with rfl | rfl
    · exact h.reached hlt
    · -- a number given out before `x` was entered belongs to a node of the old stack
      exact ⟨c, grows.entered_of_lt hmark hlt, .single hc⟩
  case scanned_seen =>
    intro w hw
    rcases List.mem_cons.mp hw with rfl | hw
    · simp [hmark]
    · exact h.scanned_seen w hw
  case le_scanned =>
    intro w hw l hl
    rcases List.mem_cons.mp hw with rfl | hw
    · have hkl := grows.entered hl
      rw [hmark, Mark.entered.injEq] at hkl
      exact hkl ▸ hmk
    · exact Nat.le_trans hmn (h.le_scanned w hw l hl)

/-- A child that was not met is visited. -/
theorem Scanned.meet_unseen {low : Option Nat} {m : Nat} (h : Scanned next size path s x scanned n t)
    (hx : s.markOf x = .unseen) (hc : c ∈ next x) (hmark : t.markOf c = .unseen)
    (hvisited : Visited next size (x :: path) t c low u) (hmn : m ≤ n)
    (hml : ∀ l, low = some l → m ≤ l) (hor : m = n ∨ low = some m) :
    Scanned next size path s x (c :: scanned) m u := by
  have grows : Grows s t := (Grows.enter hx).trans h.grows
  refine
    { consistent := hvisited.consistent
      grows := h.grows.trans hvisited.grows
      le_count := Nat.le_trans hmn h.le_count
      reached := ?reached
      le_number := ?le_number
      scanned_seen := ?scanned_seen
      le_scanned := ?le_scanned }
  case reached =>
    intro hlt
    rcases hor with rfl | hlow
    · exact h.reached hlt
    · obtain ⟨y, hy, hcy⟩ := hvisited.low_reached m hlow
      exact ⟨y, grows.entered_of_lt hy hlt, (ReflTransGen.single hc).trans hcy⟩
  case le_number =>
    intro v j hvx hv hj w hw k hk
    by_cases hvt : t.markOf v = .unseen
    · obtain ⟨l, hl, hlk⟩ := hvisited.low_le v j hvt hj w hw k (grows.entered hk)
      exact Nat.le_trans (hml l hl) hlk
    · rw [hvisited.grows.markOf_eq v hvt] at hj
      exact Nat.le_trans hmn (h.le_number v j hvx hv hj w hw k hk)
  case scanned_seen =>
    intro w hw
    rcases List.mem_cons.mp hw with rfl | hw
    · exact hvisited.seen
    · exact hvisited.grows.ne_unseen (h.scanned_seen w hw)
  case le_scanned =>
    intro w hw k hk
    rcases List.mem_cons.mp hw with rfl | hw
    · simp [grows.entered hk] at hmark
    · exact Nat.le_trans hmn (h.le_scanned w hw k hk)

/-- Meeting a child keeps the invariant of the loop, if visits of nodes that were not met do what
they should. -/
theorem Scanned.meet {visit : Search → Nat → Option Nat × Search}
    (h : Scanned next size path s x scanned n t) (hx : s.markOf x = .unseen) (hc : c ∈ next x)
    (hvisit : t.markOf c = .unseen →
      Visited next size (x :: path) t c (visit t c).1 (visit t c).2) :
    ∃ m, (ImportGraph.meet visit (some n, t) c).1 = some m
      ∧ Scanned next size path s x (c :: scanned) m (ImportGraph.meet visit (some n, t) c).2 := by
  unfold ImportGraph.meet
  cases hmark : t.markOf c with
  | done =>
    simp only [hmark]
    exact ⟨n, rfl, h.meet_done hx hmark⟩
  | entered k =>
    simp only [hmark]
    obtain ⟨m, hm, hmn, hml, hor⟩ := least_spec n (some k)
    refine ⟨m, hm, h.meet_entered hx hc hmark hmn (hml k rfl) ?_⟩
    exact hor.imp_right fun hk => (Option.some.inj hk).symm
  | unseen =>
    simp only [hmark]
    obtain ⟨m, hm, hmn, hml, hor⟩ := least_spec n (visit t c).1
    exact ⟨m, hm, h.meet_unseen hx hc hmark (hvisit hmark) hmn hml hor⟩

end Meeting

/-! ## Leaving a node -/

/-- Whether a node was entered after `s`, and is still on the stack of `t`. -/
def IsNew (s t : Search) (v : Nat) : Prop := s.markOf v = .unseen ∧ ∃ k, t.markOf v = .entered k

section Leaving

variable {n : Nat} (h : Consistent next size path s) (hx : s.markOf x = .unseen)
  (hs : Scanned next size path s x (next x) n t)

include hx hs

theorem Scanned.grows_all : Grows s t := (Grows.enter hx).trans hs.grows

theorem Scanned.entered_self : t.markOf x = .entered s.count := by
  have hlt : x < s.marks.size := lt_size_of_unseen hx
  exact hs.grows.entered (by rw [markOf_enter hlt, if_pos rfl])

/-- No new node leads to a node of the old stack with a number below the least one met. -/
theorem Scanned.le_of_new {v w k : Nat} (hv : IsNew s t v) (hw : w ∈ next v)
    (hk : s.markOf w = .entered k) : n ≤ k := by
  obtain ⟨hseen, j, hj⟩ := hv
  by_cases hvx : v = x
  · subst hvx
    exact hs.le_scanned w hw k hk
  · exact hs.le_number v j hvx hseen hj w hw k hk

include h

/-- The new nodes are those above the old stack. -/
theorem Scanned.exists_stack : ∃ new, t.stack = new ++ x :: s.stack ∧ x ∉ new
    ∧ ∀ v, v ∈ new ++ [x] ↔ IsNew s t v := by
  obtain ⟨new, hnew⟩ := hs.grows.stack_eq
  have hstack : t.stack = new ++ x :: s.stack := hnew
  have nodup := hs.consistent.stack_nodup
  have grows := hs.grows_all hx
  rw [hstack] at nodup
  have split : (new ++ [x] ++ s.stack).Nodup := by simpa using nodup
  -- what lies above the old stack is not on it, and all that is on it was met before
  refine ⟨new, hstack, ?_, ?_⟩
  · intro hmem
    exact (List.nodup_append.mp nodup).2.2 x hmem x List.mem_cons_self rfl
  · intro v
    constructor
    · intro hv
      obtain ⟨k, hk⟩ := (hs.consistent.mem_stack v).mp (by
        rw [hstack]
        simp only [List.mem_append, List.mem_cons, List.not_mem_nil, or_false] at hv ⊢
        tauto)
      refine ⟨?_, k, hk⟩
      by_contra hseen
      rw [grows.markOf_eq v hseen] at hk
      exact (List.nodup_append.mp split).2.2 v hv v ((h.mem_stack v).mpr ⟨k, hk⟩) rfl
    · rintro ⟨hseen, k, hk⟩
      have hmem := (hs.consistent.mem_stack v).mpr ⟨k, hk⟩
      have hold : v ∉ s.stack := by
        intro hold
        obtain ⟨j, hj⟩ := (h.mem_stack v).mp hold
        simp [hseen] at hj
      rw [hstack] at hmem
      simp only [List.mem_append, List.mem_cons, List.not_mem_nil, or_false] at hmem ⊢
      tauto

/-- All that a new node leads to was met. -/
theorem Scanned.seen_of_new {v w : Nat} (hv : IsNew s t v) (hw : w ∈ next v) :
    t.markOf w ≠ .unseen := by
  obtain ⟨hseen, k, hk⟩ := hv
  by_cases hvx : v = x
  · subst hvx
    exact hs.scanned_seen w hw
  · refine hs.consistent.seen_closed v (by simp [hk]) ?_ w hw
    intro hmem
    rcases List.mem_cons.mp hmem with e | hmem
    · exact hvx e
    · obtain ⟨j, hj⟩ := (h.mem_stack v).mp (h.path_entered v hmem)
      simp [hseen] at hj

/-- If a node on the old stack was met, the visited node stays on the stack. -/
theorem Scanned.visited_of_lt (hlt : n < s.count) : Visited next size path s x (some n) t := by
  have grows := hs.grows_all hx
  have self := hs.entered_self hx
  obtain ⟨y, hy, hxy⟩ := hs.reached hlt
  refine
    { consistent :=
        { hs.consistent with
          path_entered := fun z hz => hs.consistent.path_entered z (List.mem_cons_of_mem x hz)
          path_reaches := fun z hz => hs.consistent.path_reaches z (List.mem_cons_of_mem x hz)
          reaches_path := ?reaches_path
          seen_closed := ?seen_closed }
      grows := grows
      seen := by simp [self]
      low_reached := ?low_reached
      low_le := ?low_le }
  case reaches_path =>
    intro v k hk
    obtain ⟨z, hz, j, hj, hjk, hvz⟩ := hs.consistent.reaches_path v k hk
    rcases List.mem_cons.mp hz with rfl | hz
    · -- The way from the visited node on goes through the node met on the old stack.
      obtain ⟨z', hz', i, hi, hin, hyz⟩ := h.reaches_path y n hy
      rw [self, Mark.entered.injEq] at hj
      exact ⟨z', hz', i, grows.entered hi, by omega, (hvz.trans hxy).trans hyz⟩
    · exact ⟨z, hz, j, hj, hjk, hvz⟩
  case seen_closed =>
    intro v hv hpath w hw
    by_cases hvx : v = x
    · subst hvx
      exact hs.scanned_seen w hw
    · refine hs.consistent.seen_closed v hv (fun hmem => ?_) w hw
      exact (List.mem_cons.mp hmem).elim hvx hpath
  case low_reached =>
    intro m hm
    exact Option.some.inj hm ▸ ⟨y, hy, hxy⟩
  case low_le =>
    intro v j hv hj w hw k hk
    exact ⟨n, rfl, hs.le_of_new hx ⟨hv, j, hj⟩ hw hk⟩

/-! ### Components -/

/-- Only nodes of the old stack stay entered when the new ones are taken off. -/
theorem Scanned.entered_finish_iff {v k : Nat} :
    (t.finish x).markOf v = .entered k ↔ s.markOf v = .entered k := by
  obtain ⟨new, hstack, hxnew, hmem⟩ := hs.exists_stack h hx
  obtain ⟨-, -, -, -, mark⟩ := finish_of_stack hstack hxnew
  rw [mark]
  by_cases hv : v ∈ new ++ [x]
  · rw [if_pos hv]
    simp [((hmem v).mp hv).1]
  · rw [if_neg hv]
    refine ⟨fun hk => ?_, (hs.grows_all hx).entered⟩
    by_contra hne
    refine hv ((hmem v).mpr ⟨?_, k, hk⟩)
    by_contra hseen
    exact hne (by rw [← (hs.grows_all hx).markOf_eq v hseen, hk])

theorem Scanned.done_finish_iff {v : Nat} :
    (t.finish x).markOf v = .done ↔ IsNew s t v ∨ t.markOf v = .done := by
  obtain ⟨new, hstack, hxnew, hmem⟩ := hs.exists_stack h hx
  obtain ⟨-, -, -, -, mark⟩ := finish_of_stack hstack hxnew
  rw [mark, ← hmem]
  split
  · next hv => simp [hv]
  · next hv => simp [hv]

theorem Scanned.ne_unseen_finish {v : Nat} (hv : t.markOf v ≠ .unseen) :
    (t.finish x).markOf v ≠ .unseen := by
  obtain ⟨new, hstack, hxnew, -⟩ := hs.exists_stack h hx
  obtain ⟨-, -, -, -, mark⟩ := finish_of_stack hstack hxnew
  rw [mark]
  split
  · simp
  · exact hv

theorem Scanned.grows_finish : Grows s (t.finish x) := by
  obtain ⟨new, hstack, hxnew, hmem⟩ := hs.exists_stack h hx
  obtain ⟨stack_eq, -, count_eq, size_eq, mark⟩ := finish_of_stack hstack hxnew
  have grows := hs.grows_all hx
  refine
    { size_eq := by rw [size_eq, grows.size_eq]
      stack_eq := ⟨[], stack_eq⟩
      markOf_eq := ?markOf_eq
      count_le := by rw [count_eq]; exact grows.count_le
      count_le_number := ?count_le_number }
  case markOf_eq =>
    intro v hv
    have : v ∉ new ++ [x] := fun hnew => hv ((hmem v).mp hnew).1
    rw [mark, if_neg this, grows.markOf_eq v hv]
  case count_le_number =>
    intro v k hv hk
    simp [(hs.entered_finish_iff h hx).mp hk] at hv

variable (hn : n = s.count)

include hn

/-- If no node on the old stack was met, nothing that is new leads there. -/
theorem Scanned.new_or_done {v w : Nat} (hv : IsNew s t v ∨ t.markOf v = .done) (hw : w ∈ next v) :
    IsNew s t w ∨ t.markOf w = .done := by
  rcases hv with hv | hv
  · cases hmark : t.markOf w with
    | unseen => exact absurd hmark (hs.seen_of_new h hx hv hw)
    | done => exact .inr rfl
    | entered k =>
      refine .inl ⟨?_, k, hmark⟩
      by_contra hseen
      rw [(hs.grows_all hx).markOf_eq w hseen] at hmark
      have hnk := hs.le_of_new hx hv hw hmark
      have hlt := h.lt_count w k hmark
      omega
  · exact .inr (hs.consistent.done_closed v hv w hw)

/-- The new nodes are then a component. -/
theorem Scanned.isComponent {component : List Nat} (hmem : ∀ v, v ∈ component ↔ IsNew s t v) :
    IsComponent next component := by
  have self := hs.entered_self hx
  have grows := hs.grows_all hx
  have stays : ∀ {a b}, IsNew s t a → Reaches next a b → IsNew s t b ∨ t.markOf b = .done :=
    fun ha hab => mem_of_reaches (fun _ hv _ hw => hs.new_or_done h hx hn hv hw) (.inl ha) hab
  have reached : ∀ a, IsNew s t a → Reaches next x a := by
    rintro a ⟨hseen, k, hk⟩
    exact hs.consistent.path_reaches x List.mem_cons_self a s.count k self hk
      (grows.count_le_number a k hseen hk)
  have reaches : ∀ a, IsNew s t a → Reaches next a x := by
    rintro a ⟨hseen, k, hk⟩
    obtain ⟨z, hz, j, hj, -, haz⟩ := hs.consistent.reaches_path a k hk
    rcases List.mem_cons.mp hz with rfl | hz
    · exact haz
    · obtain ⟨i, hi⟩ := (h.mem_stack z).mp (h.path_entered z hz)
      rcases stays ⟨hseen, k, hk⟩ haz with hnew | hdone
      · simp [hnew.1] at hi
      · simp [hdone] at hj
  refine ⟨List.ne_nil_of_mem ((hmem x).mpr ⟨hx, s.count, self⟩), fun a ha b => ?_⟩
  rw [hmem] at ha ⊢
  constructor
  · intro hb
    exact ⟨(reaches a ha).trans (reached b hb), (reaches b hb).trans (reached a ha)⟩
  · rintro ⟨hab, hba⟩
    -- a finished node leads to finished nodes only, and so never back to a new one
    refine (stays ha hab).resolve_right fun hdone => ?_
    have hadone : t.markOf a = .done := mem_of_reaches hs.consistent.done_closed hdone hba
    obtain ⟨k, hk⟩ := ha.2
    simp [hadone] at hk

/-- Taking the new nodes off as a component gives back the stack and the path of the old search. -/
theorem Scanned.consistent_finish : Consistent next size path (t.finish x) := by
  obtain ⟨new, hstack, hxnew, hmem⟩ := hs.exists_stack h hx
  obtain ⟨stack_eq, components_eq, count_eq, size_eq, -⟩ := finish_of_stack hstack hxnew
  have entered : ∀ {v k}, (t.finish x).markOf v = .entered k ↔ s.markOf v = .entered k :=
    hs.entered_finish_iff h hx
  have done : ∀ {v}, (t.finish x).markOf v = .done ↔ IsNew s t v ∨ t.markOf v = .done :=
    hs.done_finish_iff h hx
  refine
    { size_eq := by rw [size_eq, hs.consistent.size_eq]
      mem_stack := ?mem_stack
      lt_count := ?lt_count
      descending := ?descending
      path_entered := by rw [stack_eq]; exact h.path_entered
      path_reaches := ?path_reaches
      reaches_path := ?reaches_path
      seen_closed := ?seen_closed
      done_closed := ?done_closed
      mem_components := ?mem_components
      components_nodup := ?components_nodup
      isComponent := ?isComponent
      ordered := ?ordered }
  case mem_stack =>
    intro v
    rw [stack_eq, h.mem_stack]
    exact exists_congr fun k => entered.symm
  case lt_count =>
    intro v k hk
    rw [count_eq]
    exact hs.consistent.lt_count v k ((hs.grows_all hx).entered (entered.mp hk))
  case descending =>
    rw [stack_eq]
    exact h.descending.imp fun hab j k hj hk => hab j k (entered.mp hj) (entered.mp hk)
  case path_reaches =>
    intro y hy z j k hj hk
    exact h.path_reaches y hy z j k (entered.mp hj) (entered.mp hk)
  case reaches_path =>
    intro y k hk
    obtain ⟨z, hz, j, hj, hjk, hyz⟩ := h.reaches_path y k (entered.mp hk)
    exact ⟨z, hz, j, entered.mpr hj, hjk, hyz⟩
  case seen_closed =>
    intro v hv hpath w hw
    refine hs.ne_unseen_finish h hx ?_
    cases hmark : (t.finish x).markOf v with
    | unseen => exact absurd hmark hv
    | entered k =>
      -- `v` was on the old stack, so it is not the visited node
      have hold := entered.mp hmark
      refine hs.consistent.seen_closed v ?_ (fun hvpath => ?_) w hw
      · simp [(hs.grows_all hx).entered hold]
      · rcases List.mem_cons.mp hvpath with rfl | hvpath
        · simp [hx] at hold
        · exact hpath hvpath
    | done =>
      rcases hs.new_or_done h hx hn (done.mp hmark) hw with ⟨-, k, hk⟩ | hw
      · simp [hk]
      · simp [hw]
  case done_closed =>
    intro v hv w hw
    exact done.mpr (hs.new_or_done h hx hn (done.mp hv) hw)
  case mem_components =>
    intro v
    rw [components_eq, List.flatten_cons, List.mem_append, hs.consistent.mem_components, done, hmem]
    constructor
    · rintro (hnew | ⟨hlt, hdone⟩)
      · obtain ⟨k, hk⟩ := hnew.2
        exact ⟨hs.consistent.lt_size hk, .inl hnew⟩
      · exact ⟨hlt, .inr hdone⟩
    · rintro ⟨hlt, hnew | hdone⟩
      · exact .inl hnew
      · exact .inr ⟨hlt, hdone⟩
  case components_nodup =>
    have nodup := hs.consistent.stack_nodup
    rw [hstack] at nodup
    have split : (new ++ [x] ++ s.stack).Nodup := by simpa using nodup
    rw [components_eq, List.flatten_cons]
    refine List.nodup_append.mpr ⟨(List.nodup_append.mp split).1, hs.consistent.components_nodup, ?_⟩
    rintro a ha b hb rfl
    obtain ⟨k, hk⟩ := ((hmem a).mp ha).2
    have := ((hs.consistent.mem_components a).mp hb).2
    simp [hk] at this
  case isComponent =>
    intro c hc
    rw [components_eq] at hc
    rcases List.mem_cons.mp hc with rfl | hc
    · exact hs.isComponent h hx hn hmem
    · exact hs.consistent.isComponent c hc
  case ordered =>
    rw [components_eq, List.pairwise_cons]
    refine ⟨fun earlier hearlier a ha b hb hnew => ?_, hs.consistent.ordered⟩
    -- finished nodes lead to finished nodes only, and the new ones were not finished
    have hdone := ((hs.consistent.mem_components a).mp (List.mem_flatten.mpr ⟨_, hearlier, ha⟩)).2
    have hbdone := hs.consistent.done_closed a hdone b hb
    obtain ⟨k, hk⟩ := ((hmem b).mp hnew).2
    simp [hbdone] at hk

/-- If no node on the old stack was met, the new nodes are taken off as a component. -/
theorem Scanned.visited_finish : Visited next size path s x none (t.finish x) where
  consistent := hs.consistent_finish h hx hn
  grows := hs.grows_finish h hx
  seen := by
    refine hs.ne_unseen_finish h hx ?_
    simp [hs.entered_self hx]
  low_reached := nofun
  low_le := by
    intro v j hv hj
    simp [(hs.entered_finish_iff h hx).mp hj] at hv

end Leaving

/-! ## Visits -/

/-- Meeting the children one after the other keeps the invariant of the loop. -/
theorem Scanned.foldl_meet {scanned children : List Nat} {n : Nat}
    (h : Scanned next size path s x scanned n t) (visit : Search → Nat → Option Nat × Search)
    (hx : s.markOf x = .unseen)
    (hchildren : ∀ c ∈ children, c ∈ next x)
    (hvisit : ∀ t c, Grows (s.enter x) t → Consistent next size (x :: path) t → c ∈ next x →
      t.markOf c = .unseen → Visited next size (x :: path) t c (visit t c).1 (visit t c).2) :
    ∃ m, (children.foldl (ImportGraph.meet visit) (some n, t)).1 = some m
      ∧ Scanned next size path s x (children.reverse ++ scanned) m
        (children.foldl (ImportGraph.meet visit) (some n, t)).2 := by
  induction children generalizing scanned n t with
  | nil => exact ⟨n, rfl, h⟩
  | cons c rest ih =>
    have hc := hchildren c List.mem_cons_self
    obtain ⟨m, hm, hscanned⟩ := h.meet hx hc (hvisit t c h.grows h.consistent hc)
    have hpair : ImportGraph.meet visit (some n, t) c
        = (some m, (ImportGraph.meet visit (some n, t) c).2) := by rw [← hm]
    rw [List.foldl_cons, hpair]
    simpa using ih hscanned fun d hd => hchildren d (List.mem_cons_of_mem c hd)

/-- What a visit does, given fuel for all nodes that were not met. -/
theorem visit_spec {fuel : Nat} (h : Consistent next size path s) (hx : s.markOf x = .unseen)
    (reach : ∀ y ∈ path, Reaches next y x) (hfuel : s.unseenCount ≤ fuel) :
    Visited next size path s x (visit next fuel s x).1 (visit next fuel s x).2 := by
  induction fuel generalizing path s x with
  | zero =>
    have := unseenCount_enter_lt hx
    omega
  | succ fuel ih =>
    have start : Scanned next size path s x [] s.count (s.enter x) :=
      { consistent := h.enter hx reach
        grows := .refl _
        le_count := Nat.le_refl _
        reached := fun hlt => absurd hlt (Nat.lt_irrefl _)
        le_number := by
          intro v j hvx hv hj
          have hlt : x < s.marks.size := lt_size_of_unseen hx
          rw [markOf_enter hlt, if_neg hvx, hv] at hj
          cases hj
        scanned_seen := by simp
        le_scanned := by simp }
    obtain ⟨n, hn, hs⟩ := start.foldl_meet (visit next fuel) hx (fun _ hc => hc) (by
      intro t c grows hcons hc hunseen
      refine ih hcons hunseen ?_ ?_
      · intro y hy
        have step : Reaches next x c := .single hc
        rcases List.mem_cons.mp hy with rfl | hy
        · exact step
        · exact (reach y hy).trans step
      · -- one node less was not met since `x` was entered, so the fuel is enough for its children
        have hlt := unseenCount_enter_lt hx
        have hle := unseenCount_le grows
        omega)
    have hs : Scanned next size path s x (next x) n
        ((next x).foldl (ImportGraph.meet (visit next fuel)) (some s.count, s.enter x)).2 :=
      { hs with
        scanned_seen := fun w hw => hs.scanned_seen w (by simpa using hw)
        le_scanned := fun w hw => hs.le_scanned w (by simpa using hw) }
    rw [visit]
    simp only [hn]
    by_cases hcount : n = s.count
    · simpa [hcount] using hs.visited_finish h hx hcount
    · have hlt : n < s.count := Nat.lt_of_le_of_ne hs.le_count hcount
      simpa [hcount] using hs.visited_of_lt h hx hlt

end TypstLint.ImportGraph.Search
