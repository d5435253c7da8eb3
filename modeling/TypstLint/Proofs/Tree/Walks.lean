import TypstLint.Proofs.Tree.Resolves
import TypstLint.Tree.Walk

set_option autoImplicit false

/-! # What can be opened

A walk goes along components through directories and follows the links that it meets. It counts them,
those within their targets included (`Walks`, `walkFrom_eq_ok_iff`). What a walk reaches is where the
components lead (`Walks.resolves`), but they can lead somewhere without a walk that does. -/

namespace TypstLint.Tree

/-- A walk along components from a place to another one, with the number of links that it follows. -/
inductive Walks (t : Tree) : Place → List String → Nat → Place → Prop
  | done {p : Place} : Walks t p [] 0 p
  | stay {p q : Place} {c : String} {rest : List String} {k : Nat} (hdir : t.isDirAt p = true)
      (hc : c = "" ∨ c = ".") (hrest : Walks t p rest k q) : Walks t p (c :: rest) k q
  | up {p q : Place} {rest : List String} {k : Nat} (hdir : t.isDirAt p = true)
      (hrest : Walks t (t.parent p) rest k q) : Walks t p (".." :: rest) k q
  | enter {p q : Place} {c : String} {rest : List String} {k : Nat} {node : Node}
      (hdir : t.isDirAt p = true) (hc : IsStep c) (hlength : c.utf8ByteSize ≤ maxNameBytes)
      (hnode : t.at? (t.child p c) = some node) (hlink : ∀ target, node ≠ .link target)
      (hrest : Walks t (t.child p c) rest k q) : Walks t p (c :: rest) k q
  | follow {p q r : Place} {c target : String} {rest : List String} {j k : Nat}
      (hdir : t.isDirAt p = true) (hc : IsStep c) (hlength : c.utf8ByteSize ≤ maxNameBytes)
      (hlink : t.at? (t.child p c) = some (.link target))
      (htarget : Walks t (t.targetStart p (componentsOf target)) (componentsOf target) j r)
      (hrest : Walks t r rest k q) : Walks t p (c :: rest) (j + k + 1) q

variable {t : Tree} {n k : Nat} {p q r : Place} {c target : String} {node : Node}
  {components rest behind : List String}

/-! ## One component -/

theorem Walks.isDirAt (h : t.Walks p (c :: rest) k q) : t.isDirAt p = true := by
  cases h with
  | stay hdir | up hdir | enter hdir | follow hdir => exact hdir

theorem walks_nil_iff : t.Walks p [] k q ↔ k = 0 ∧ p = q := by
  constructor
  · rintro ⟨⟩
    exact ⟨rfl, rfl⟩
  · rintro ⟨rfl, rfl⟩
    exact .done

theorem walks_stay_iff (hdir : t.isDirAt p = true) (hc : c = "" ∨ c = ".") :
    t.Walks p (c :: rest) k q ↔ t.Walks p rest k q := by
  refine ⟨fun h => ?_, .stay hdir hc⟩
  cases h with
  | stay _ _ hrest => exact hrest
  | up => exact absurd hc (by decide)
  | enter _ hstep | follow _ hstep => exact absurd hc (not_or.mpr ⟨hstep.1, hstep.2.1⟩)

theorem walks_up_iff (hdir : t.isDirAt p = true) :
    t.Walks p (".." :: rest) k q ↔ t.Walks (t.parent p) rest k q := by
  refine ⟨fun h => ?_, .up hdir⟩
  cases h with
  | stay _ hc => exact absurd hc (by decide)
  | up _ hrest => exact hrest
  | enter _ hstep | follow _ hstep => exact absurd rfl hstep.2.2

/-- A name leads on if it is short enough and there is an entry. -/
theorem Walks.exists_node (hc : IsStep c) (h : t.Walks p (c :: rest) k q) :
    c.utf8ByteSize ≤ maxNameBytes ∧ ∃ node, t.at? (t.child p c) = some node := by
  cases h with
  | stay _ hstay => exact absurd hstay (not_or.mpr ⟨hc.1, hc.2.1⟩)
  | up => exact absurd rfl hc.2.2
  | enter _ _ hlength hnode => exact ⟨hlength, _, hnode⟩
  | follow _ _ hlength hlink => exact ⟨hlength, _, hlink⟩

theorem walks_enter_iff (hdir : t.isDirAt p = true) (hc : IsStep c)
    (hlength : c.utf8ByteSize ≤ maxNameBytes) (hnode : t.at? (t.child p c) = some node)
    (hlink : ∀ target, node ≠ .link target) :
    t.Walks p (c :: rest) k q ↔ t.Walks (t.child p c) rest k q := by
  refine ⟨fun h => ?_, .enter hdir hc hlength hnode hlink⟩
  cases h with
  | stay _ hstay => exact absurd hstay (not_or.mpr ⟨hc.1, hc.2.1⟩)
  | up => exact absurd rfl hc.2.2
  | enter _ _ _ _ _ hrest => exact hrest
  | follow _ _ _ hlink' => exact absurd (Option.some.inj (hnode.symm.trans hlink')) (hlink _)

theorem walks_follow_iff (hdir : t.isDirAt p = true) (hc : IsStep c)
    (hlength : c.utf8ByteSize ≤ maxNameBytes) (hlink : t.at? (t.child p c) = some (.link target)) :
    t.Walks p (c :: rest) k q ↔ ∃ i j r, k = i + j + 1
      ∧ t.Walks (t.targetStart p (componentsOf target)) (componentsOf target) i r
      ∧ t.Walks r rest j q := by
  constructor
  · intro h
    cases h with
    | stay _ hstay => exact absurd hstay (not_or.mpr ⟨hc.1, hc.2.1⟩)
    | up => exact absurd rfl hc.2.2
    | enter _ _ _ hnode hlink' => exact absurd (Option.some.inj (hnode.symm.trans hlink)) (hlink' _)
    | follow _ _ _ hlink' htarget hrest =>
      obtain rfl := Node.link.inj (Option.some.inj (hlink.symm.trans hlink'))
      exact ⟨_, _, _, rfl, htarget, hrest⟩
  · rintro ⟨i, j, r, rfl, htarget, hrest⟩
    exact .follow hdir hc hlength hlink htarget hrest

/-! ## Several components -/

theorem Walks.append {j : Nat} (h : t.Walks p components j r) (h' : t.Walks r behind k q) :
    t.Walks p (components ++ behind) (j + k) q := by
  induction h with
  | done => rwa [Nat.zero_add]
  | stay hdir hc _ ih => exact .stay hdir hc (ih h')
  | up hdir _ ih => exact .up hdir (ih h')
  | enter hdir hc hlength hnode hlink _ ih => exact .enter hdir hc hlength hnode hlink (ih h')
  | @follow _ _ _ _ _ _ i j hdir hc hlength hlink htarget _ _ ih =>
    have hlinks : i + j + 1 + k = i + (j + k) + 1 := by omega
    rw [hlinks]
    exact .follow hdir hc hlength hlink htarget (ih h')

theorem walks_append_iff : t.Walks p (components ++ behind) k q ↔
    ∃ i j r, k = i + j ∧ t.Walks p components i r ∧ t.Walks r behind j q := by
  constructor
  · intro h
    induction components generalizing p k with
    | nil => exact ⟨0, k, p, k.zero_add.symm, .done, h⟩
    | cons c rest ih =>
      rw [List.cons_append] at h
      cases h with
      | stay hdir hc hrest =>
        obtain ⟨i, j, r, rfl, hr, hq⟩ := ih hrest
        exact ⟨i, j, r, rfl, .stay hdir hc hr, hq⟩
      | up hdir hrest =>
        obtain ⟨i, j, r, rfl, hr, hq⟩ := ih hrest
        exact ⟨i, j, r, rfl, .up hdir hr, hq⟩
      | enter hdir hc hlength hnode hlink hrest =>
        obtain ⟨i, j, r, rfl, hr, hq⟩ := ih hrest
        exact ⟨i, j, r, rfl, .enter hdir hc hlength hnode hlink hr, hq⟩
      | @follow _ _ _ _ _ _ l _ hdir hc hlength hlink htarget hrest =>
        obtain ⟨i, j, r, rfl, hr, hq⟩ := ih hrest
        exact ⟨l + i + 1, j, r, by omega, .follow hdir hc hlength hlink htarget hr, hq⟩
  · rintro ⟨i, j, r, rfl, h, h'⟩
    exact h.append h'

/-- What a walk reaches is where the components lead. -/
theorem Walks.resolves (h : t.Walks p components k q) : t.Resolves k p components q := by
  induction h with
  | done => exact .done
  | stay _ hc _ ih => exact .stay hc ih
  | up _ _ ih => exact .up ih
  | @enter _ _ _ _ _ _ _ hc _ hnode hlink _ ih =>
    refine .enter hc (Option.eq_none_iff_forall_ne_some.mpr fun target htarget => ?_) ih
    exact hlink target (Option.some.inj (hnode.symm.trans (linkAt?_eq_some_iff.mp htarget)))
  | @follow _ _ _ _ _ _ j k _ hc _ hlink _ _ ihtarget ih =>
    exact .follow hc (linkAt?_eq_some_iff.mpr hlink) (ihtarget.mono (Nat.le_add_right j k))
      (ih.mono (by omega))

/-! ## Walking -/

section

variable {links : Nat} {follow : Place → List String → Except WalkError Place}

/-- There is no walk without a name that is short enough and an entry of it. -/
theorem not_exists_walks (hc : IsStep c)
    (h : maxNameBytes < c.utf8ByteSize ∨ t.at? (t.child p c) = none) :
    ¬ ∃ k ≤ links, t.Walks p (c :: rest) k q := by
  rintro ⟨k, -, hk⟩
  obtain ⟨hlength, node, hnode⟩ := hk.exists_node hc
  rcases h with hlong | hnone
  · exact Nat.not_le.mpr hlong hlength
  · rw [hnone] at hnode
    cases hnode

variable
  (hfollow : ∀ p components q, follow p components = .ok q ↔ ∃ k < links, t.Walks p components k q)
include hfollow

/-- A link takes one more than the walk through its target and on from there. -/
theorem follow_eq_ok_iff (hdir : t.isDirAt p = true) (hc : IsStep c)
    (hlength : c.utf8ByteSize ≤ maxNameBytes) (hlink : t.at? (t.child p c) = some (.link target)) :
    follow (t.targetStart p (componentsOf target)) (componentsOf target ++ rest) = .ok q
      ↔ ∃ k ≤ links, t.Walks p (c :: rest) k q := by
  simp only [hfollow, walks_append_iff, walks_follow_iff hdir hc hlength hlink]
  constructor
  · rintro ⟨k, hk, i, j, r, rfl, htarget, hrest⟩
    exact ⟨i + j + 1, hk, i, j, r, rfl, htarget, hrest⟩
  · rintro ⟨k, hk, i, j, r, rfl, htarget, hrest⟩
    exact ⟨i + j, hk, i, j, r, rfl, htarget, hrest⟩

/-- If links are followed where walks with fewer of them lead, walking finds every walk. -/
theorem walkWith_eq_ok_iff :
    walkWith t follow p components = .ok q ↔ ∃ k ≤ links, t.Walks p components k q := by
  induction components generalizing p with
  | nil =>
    simp only [walkWith, Except.ok.injEq, walks_nil_iff]
    constructor
    · exact fun heq => ⟨0, links.zero_le, rfl, heq⟩
    · exact fun ⟨_, _, _, heq⟩ => heq
  | cons c rest ih =>
    rw [walkWith]
    by_cases hdir : t.isDirAt p = true
    · rw [hdir, Bool.not_true, if_neg Bool.false_ne_true]
      rcases step_cases c with hc | rfl | hc
      · rw [if_pos (stays_iff.mpr hc), ih]
        simp only [walks_stay_iff hdir hc]
      · simp only [walks_up_iff hdir]
        exact ih
      · rw [hc.stays_eq_false, beq_false_of_ne hc.2.2, if_neg Bool.false_ne_true,
          if_neg Bool.false_ne_true]
        by_cases hlong : maxNameBytes < c.utf8ByteSize
        · rw [if_pos hlong]
          exact iff_of_false nofun (not_exists_walks hc (.inl hlong))
        · rw [if_neg hlong]
          have hlength := Nat.not_lt.mp hlong
          cases hnode : t.at? (t.child p c) with
          | none => exact iff_of_false nofun (not_exists_walks hc (.inr hnode))
          | some node =>
            cases node with
            | link target => exact follow_eq_ok_iff hfollow hdir hc hlength hnode
            | file | dir =>
              simp only [walks_enter_iff hdir hc hlength hnode fun _ => Node.noConfusion]
              exact ih
    · rw [Bool.eq_false_iff.mpr hdir]
      exact iff_of_false nofun fun ⟨_, _, hk⟩ => hdir hk.isDirAt

end

/-- Walking finds the walks that follow so many links at most. -/
theorem walkFrom_eq_ok_iff {links : Nat} :
    walkFrom t links p components = .ok q ↔ ∃ k ≤ links, t.Walks p components k q := by
  induction links generalizing p components q with
  | zero =>
    refine walkWith_eq_ok_iff fun p components q => ?_
    constructor
    · rintro ⟨⟩
    · rintro ⟨k, hk, -⟩
      exact absurd hk k.not_lt_zero
  | succ links ih =>
    refine walkWith_eq_ok_iff fun p components q => ?_
    rw [ih]
    exact exists_congr fun k => and_congr_left' Nat.lt_succ_iff.symm

/-- Whether a path can be followed to its end, along directories and not too many links. -/
def CanOpen (t : Tree) (path : List String) : Prop := ∃ k ≤ maxLinks, ∃ q, t.Walks .root path k q

theorem canOpen_iff : t.CanOpen components ↔ (walkFrom t maxLinks .root components).isOk = true := by
  constructor
  · rintro ⟨k, hk, q, hq⟩
    rw [walkFrom_eq_ok_iff.mpr ⟨k, hk, hq⟩]
    rfl
  · intro hok
    cases hwalk : walkFrom t maxLinks .root components with
    | ok q =>
      obtain ⟨k, hk, hq⟩ := walkFrom_eq_ok_iff.mp hwalk
      exact ⟨k, hk, q, hq⟩
    | error e =>
      rw [hwalk] at hok
      cases hok

instance (t : Tree) (path : List String) : Decidable (t.CanOpen path) :=
  decidable_of_iff' _ canOpen_iff

/-- A path that can be opened is opened where it leads. -/
theorem toOption_walkFrom (hq : t.Resolves n .root components q) :
    (walkFrom t maxLinks .root components).toOption = some q ∧ t.CanOpen components
    ∨ (walkFrom t maxLinks .root components).toOption = none ∧ ¬ t.CanOpen components := by
  rw [canOpen_iff]
  cases hwalk : walkFrom t maxLinks .root components with
  | ok q' =>
    obtain ⟨k, -, hk⟩ := walkFrom_eq_ok_iff.mp hwalk
    obtain rfl := hq.unique hk.resolves
    exact .inl ⟨rfl, rfl⟩
  | error e => exact .inr ⟨rfl, Bool.false_ne_true⟩

/-! ## Finding entries -/

theorem walk_eq_ok_iff : t.walk components = .ok p ↔
    components.foldl (fun n c => n + c.utf8ByteSize + 1) 0 ≤ maxPathBytes
      ∧ ∃ k ≤ maxLinks, t.Walks .root components k p := by
  rw [walk, ← walkFrom_eq_ok_iff]
  by_cases hlong : maxPathBytes < components.foldl (fun n c => n + c.utf8ByteSize + 1) 0
  · rw [if_pos hlong]
    exact iff_of_false nofun fun h => Nat.not_le.mpr hlong h.1
  · rw [if_neg hlong]
    exact (and_iff_right (Nat.not_lt.mp hlong)).symm

theorem le_foldl_utf8ByteSize (components : List String) (n : Nat) :
    n ≤ components.foldl (fun n c => n + c.utf8ByteSize + 1) n := by
  induction components generalizing n with
  | nil => exact Nat.le_refl n
  | cons c rest ih => exact Nat.le_trans (by omega) (ih (n + c.utf8ByteSize + 1))

/-- A walk along a path leads along what is in front in it first. -/
theorem walk_append (h : t.walk (components ++ behind) = .ok q) :
    ∃ p k, t.walk components = .ok p ∧ t.Walks p behind k q := by
  obtain ⟨hlength, k, hk, hwalks⟩ := walk_eq_ok_iff.mp h
  obtain ⟨i, j, p, rfl, hfront, hbehind⟩ := walks_append_iff.mp hwalks
  rw [List.foldl_append] at hlength
  refine ⟨p, j, walk_eq_ok_iff.mpr ⟨?_, i, by omega, hfront⟩, hbehind⟩
  exact Nat.le_trans (le_foldl_utf8ByteSize behind _) hlength

theorem find_eq_some_iff :
    t.find components = .ok (some (p, node)) ↔ t.walk components = .ok p ∧ t.at? p = some node := by
  unfold find
  split
  · next p' hwalk =>
    rw [hwalk, Except.ok.injEq, Except.ok.injEq, Option.map_eq_some_iff]
    constructor
    · rintro ⟨node', hnode, heq⟩
      obtain ⟨rfl, rfl⟩ := Prod.mk.inj heq
      exact ⟨rfl, hnode⟩
    · rintro ⟨rfl, hnode⟩
      exact ⟨node, hnode, rfl⟩
  · next hwalk =>
    rw [hwalk]
    exact iff_of_false nofun nofun
  · next hwalk =>
    rw [hwalk]
    exact iff_of_false nofun nofun

theorem findDir_eq_some_iff :
    t.findDir components = .ok (some p) ↔ t.walk components = .ok p ∧ t.isDirAt p = true := by
  rw [isDirAt_iff, ← find_eq_some_iff]
  unfold findDir
  split
  · next hfind =>
    rw [hfind]
    exact iff_of_false nofun nofun
  · next p' hfind =>
    rw [hfind]
    simp
  · next found hdir hfind =>
    rw [hfind]
    refine iff_of_false nofun fun heq => hdir p ?_
    exact Except.ok.inj heq

end TypstLint.Tree
