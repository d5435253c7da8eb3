import Mathlib.Data.List.Perm.Subperm
import Mathlib.Data.Nat.Find
import TypstLint.Proofs.Tree.Entries
import TypstLint.Tree.Walk

set_option autoImplicit false

/-! # Where components lead

Components lead from a place to another one (`Resolves`) when every link on the way is replaced by its
target, whether anything is there or not. They lead to one place at most (`Resolves.unique`), and to none
only if a link on the way leads back to itself. Where they lead, resolving finds the place
(`resolveFrom_eq_place`). -/

namespace TypstLint.Tree

/-- Whether a component is neither empty nor a word for the directory itself or the one above it. -/
def IsStep (c : String) : Prop := c ≠ "" ∧ c ≠ "." ∧ c ≠ ".."

/-- Components lead from a place to another one, with at most so many levels of links within links. -/
inductive Resolves (t : Tree) : Nat → Place → List String → Place → Prop
  | done {n : Nat} {p : Place} : Resolves t n p [] p
  | stay {n : Nat} {p q : Place} {c : String} {rest : List String} (hc : c = "" ∨ c = ".")
      (hrest : Resolves t n p rest q) : Resolves t n p (c :: rest) q
  | up {n : Nat} {p q : Place} {rest : List String} (hrest : Resolves t n (t.parent p) rest q) :
      Resolves t n p (".." :: rest) q
  | enter {n : Nat} {p q : Place} {c : String} {rest : List String} (hc : IsStep c)
      (hnode : t.linkAt? (t.child p c) = none) (hrest : Resolves t n (t.child p c) rest q) :
      Resolves t n p (c :: rest) q
  | follow {n : Nat} {p q r : Place} {c target : String} {rest : List String} (hc : IsStep c)
      (hlink : t.linkAt? (t.child p c) = some target)
      (htarget : Resolves t n (t.targetStart p (componentsOf target)) (componentsOf target) r)
      (hrest : Resolves t (n + 1) r rest q) : Resolves t (n + 1) p (c :: rest) q

variable {t : Tree} {n m : Nat} {p q r : Place} {c target : String}
  {path components rest behind : List String}

theorem IsName.isStep (h : IsName c) : IsStep c := ⟨h.1, h.2.1, h.2.2.1⟩

theorem step_cases (c : String) : (c = "" ∨ c = ".") ∨ c = ".." ∨ IsStep c := by
  by_cases hstay : c = "" ∨ c = "."
  · exact .inl hstay
  · obtain ⟨hempty, hdot⟩ := not_or.mp hstay
    by_cases hup : c = ".."
    · exact .inr (.inl hup)
    · exact .inr (.inr ⟨hempty, hdot, hup⟩)

theorem stays_iff : (c.isEmpty || c == ".") = true ↔ c = "" ∨ c = "." := by
  rw [Bool.or_eq_true, String.isEmpty_iff, beq_iff_eq]

theorem IsStep.stays_eq_false (h : IsStep c) : (c.isEmpty || c == ".") = false := by
  rw [Bool.eq_false_iff, ne_eq, stays_iff]
  exact not_or.mpr ⟨h.1, h.2.1⟩

/-! ## One component -/

theorem resolves_nil_iff : t.Resolves n p [] q ↔ p = q := by
  constructor
  · rintro ⟨⟩
    rfl
  · rintro rfl
    exact .done

theorem resolves_stay_iff (hc : c = "" ∨ c = ".") :
    t.Resolves n p (c :: rest) q ↔ t.Resolves n p rest q := by
  refine ⟨fun h => ?_, .stay hc⟩
  cases h with
  | stay _ hrest => exact hrest
  | up => exact absurd hc (by decide)
  | enter hstep | follow hstep => exact absurd hc (not_or.mpr ⟨hstep.1, hstep.2.1⟩)

theorem resolves_up_iff : t.Resolves n p (".." :: rest) q ↔ t.Resolves n (t.parent p) rest q := by
  refine ⟨fun h => ?_, .up⟩
  cases h with
  | stay hc => exact absurd hc (by decide)
  | up hrest => exact hrest
  | enter hstep | follow hstep => exact absurd rfl hstep.2.2

theorem resolves_enter_iff (hc : IsStep c) (hnode : t.linkAt? (t.child p c) = none) :
    t.Resolves n p (c :: rest) q ↔ t.Resolves n (t.child p c) rest q := by
  refine ⟨fun h => ?_, .enter hc hnode⟩
  cases h with
  | stay hstay => exact absurd hstay (not_or.mpr ⟨hc.1, hc.2.1⟩)
  | up => exact absurd rfl hc.2.2
  | enter _ _ hrest => exact hrest
  | follow _ hlink =>
    rw [hnode] at hlink
    cases hlink

theorem resolves_follow_iff (hc : IsStep c) (hlink : t.linkAt? (t.child p c) = some target) :
    t.Resolves n p (c :: rest) q ↔ ∃ k r, n = k + 1
      ∧ t.Resolves k (t.targetStart p (componentsOf target)) (componentsOf target) r
      ∧ t.Resolves n r rest q := by
  constructor
  · intro h
    cases h with
    | stay hstay => exact absurd hstay (not_or.mpr ⟨hc.1, hc.2.1⟩)
    | up => exact absurd rfl hc.2.2
    | enter _ hnode =>
      rw [hnode] at hlink
      cases hlink
    | follow _ hlink' htarget hrest =>
      rw [hlink] at hlink'
      obtain rfl := Option.some.inj hlink'
      exact ⟨_, _, rfl, htarget, hrest⟩
  · rintro ⟨k, r, rfl, htarget, hrest⟩
    exact .follow hc hlink htarget hrest

/-! ## Several components -/

theorem Resolves.mono (h : t.Resolves n p components q) (hle : n ≤ m) :
    t.Resolves m p components q := by
  induction h generalizing m with
  | done => exact .done
  | stay hc _ ih => exact .stay hc (ih hle)
  | up _ ih => exact .up (ih hle)
  | enter hc hnode _ ih => exact .enter hc hnode (ih hle)
  | follow hc hlink _ _ ihtarget ih =>
    obtain ⟨k, rfl⟩ := Nat.exists_eq_add_of_le' (Nat.le_of_add_left_le hle)
    exact .follow hc hlink (ihtarget (Nat.le_of_add_le_add_right hle)) (ih hle)

/-- A link leads to its target, and on from there. -/
theorem Resolves.follow_max (hc : IsStep c) (hlink : t.linkAt? (t.child p c) = some target)
    (htarget : t.Resolves m (t.targetStart p (componentsOf target)) (componentsOf target) r)
    (hrest : t.Resolves n r rest q) : t.Resolves (max m n + 1) p (c :: rest) q :=
  .follow hc hlink (htarget.mono (m.le_max_left n))
    (hrest.mono (Nat.le_succ_of_le (m.le_max_right n)))

/-- Components lead to one place at most. -/
theorem Resolves.unique (h : t.Resolves n p components q) (h' : t.Resolves m p components r) :
    q = r := by
  induction h generalizing m r with
  | done => exact resolves_nil_iff.mp h'
  | stay hc _ ih => exact ih ((resolves_stay_iff hc).mp h')
  | up _ ih => exact ih (resolves_up_iff.mp h')
  | enter hc hnode _ ih => exact ih ((resolves_enter_iff hc hnode).mp h')
  | follow hc hlink _ _ ihtarget ih =>
    obtain ⟨k, r, rfl, htarget, hrest⟩ := (resolves_follow_iff hc hlink).mp h'
    obtain rfl := ihtarget htarget
    exact ih hrest

theorem Resolves.append (h : t.Resolves n p components r) (h' : t.Resolves n r behind q) :
    t.Resolves n p (components ++ behind) q := by
  induction h with
  | done => exact h'
  | stay hc _ ih => exact .stay hc (ih h')
  | up _ ih => exact .up (ih h')
  | enter hc hnode _ ih => exact .enter hc hnode (ih h')
  | follow hc hlink htarget _ _ ih => exact .follow hc hlink htarget (ih h')

theorem resolves_append_iff : t.Resolves n p (components ++ behind) q ↔
    ∃ r, t.Resolves n p components r ∧ t.Resolves n r behind q := by
  refine ⟨fun h => ?_, fun ⟨r, h, h'⟩ => h.append h'⟩
  induction components generalizing p with
  | nil => exact ⟨p, .done, h⟩
  | cons c rest ih =>
    rw [List.cons_append] at h
    rcases step_cases c with hc | rfl | hc
    · obtain ⟨r, hr, hq⟩ := ih ((resolves_stay_iff hc).mp h)
      exact ⟨r, .stay hc hr, hq⟩
    · obtain ⟨r, hr, hq⟩ := ih (resolves_up_iff.mp h)
      exact ⟨r, .up hr, hq⟩
    · cases hnode : t.linkAt? (t.child p c) with
      | none =>
        obtain ⟨r, hr, hq⟩ := ih ((resolves_enter_iff hc hnode).mp h)
        exact ⟨r, .enter hc hnode hr, hq⟩
      | some target =>
        obtain ⟨k, s, rfl, htarget, hrest⟩ := (resolves_follow_iff hc hnode).mp h
        obtain ⟨r, hr, hq⟩ := ih hrest
        exact ⟨r, .follow hc hnode htarget hr, hq⟩

/-! ## Links -/

/-- The target of the link at a path leads to a place, with at most so many levels of links. -/
def LeadsWithin (t : Tree) (n : Nat) (path : List String) (q : Place) : Prop :=
  ∃ target, t.linkAt? ⟨0, path⟩ = some target
    ∧ t.Resolves n (t.targetStart ⟨0, path.dropLast⟩ (componentsOf target)) (componentsOf target) q

/-- The target of the link at a path leads to a place. -/
def LeadsTo (t : Tree) (path : List String) (q : Place) : Prop := ∃ n, t.LeadsWithin n path q

theorem LeadsWithin.unique (h : t.LeadsWithin n path q) (h' : t.LeadsWithin m path r) : q = r := by
  obtain ⟨target, hlink, hq⟩ := h
  obtain ⟨target', hlink', hr⟩ := h'
  obtain rfl := Option.some.inj (hlink.symm.trans hlink')
  exact hq.unique hr

theorem LeadsTo.unique (h : t.LeadsTo path q) (h' : t.LeadsTo path r) : q = r := by
  obtain ⟨n, hn⟩ := h
  obtain ⟨m, hm⟩ := h'
  exact hn.unique hm

/-- Where a link leads that is met in a directory. -/
theorem leadsWithin_child_iff (hlink : t.linkAt? (t.child p c) = some target) :
    t.LeadsWithin n (t.child p c).path q ↔
      t.Resolves n (t.targetStart p (componentsOf target)) (componentsOf target) q := by
  obtain ⟨hchild, hp⟩ := eq_of_linkAt?_child hlink
  have hdir : (⟨0, (t.child p c).path.dropLast⟩ : Place) = p := by
    rw [hchild, List.dropLast_concat]
    exact hp.symm
  have hplace : (⟨0, (t.child p c).path⟩ : Place) = t.child p c := by rw [hchild]
  rw [LeadsWithin, hdir, hplace, hlink]
  constructor
  · rintro ⟨target', htarget, hq⟩
    obtain rfl := Option.some.inj htarget
    exact hq
  · exact fun hq => ⟨target, rfl, hq⟩

end TypstLint.Tree

/-! ## Resolving finds where components lead

Resolving keeps a table of the links that it has met. Those that it has resolved are in it with the place
they lead to, and those that it is resolving are pending. A pending link is not met again where
components lead somewhere: it leads to its place with fewer levels of links than are left, and was
resolved with no more than it needs. As no link is pending twice, there are levels enough. -/

namespace TypstLint.Tree

variable {t : Tree} {n : Nat} {p q : Place} {c target : String} {rest components : List String}
  {pending : List (List String)} {seen : SeenLinks}
  {expand : SeenLinks → Place → List String → Resolution × SeenLinks}

/-! ### One component -/

theorem resolveWith_stay (hc : c = "" ∨ c = ".") :
    resolveWith t expand seen p (c :: rest) = resolveWith t expand seen p rest := by
  rw [resolveWith, if_pos (stays_iff.mpr hc)]

theorem resolveWith_up :
    resolveWith t expand seen p (".." :: rest) = resolveWith t expand seen (t.parent p) rest := rfl

theorem resolveWith_step (hc : IsStep c) : resolveWith t expand seen p (c :: rest) =
    match t.linkAt? (t.child p c) with
    | none => resolveWith t expand seen (t.child p c) rest
    | some target =>
      match seen.lookup (t.child p c).path with
      | some (some q) => resolveWith t expand seen q rest
      | some none => (.loop (t.child p c) rest, seen)
      | none =>
        match expand (((t.child p c).path, none) :: seen)
            (t.targetStart p (componentsOf target)) (componentsOf target) with
        | (.loop q behind, seen) => (.loop q (behind ++ rest), seen)
        | (.place q, seen) => resolveWith t expand (((t.child p c).path, some q) :: seen) q rest := by
  rewrite [resolveWith, hc.stays_eq_false, beq_false_of_ne hc.2.2, if_neg Bool.false_ne_true,
    if_neg Bool.false_ne_true]
  rfl

/-! ### The table of links -/

/-- What a table of links tells: where the links lead that are resolved, and which ones are pending. -/
structure Tells (t : Tree) (pending : List (List String)) (seen : SeenLinks) : Prop where
  leads : ∀ path q, seen.lookup path = some (some q) → t.LeadsTo path q
  pending : ∀ path, seen.lookup path = some none ↔ path ∈ pending

theorem tells_nil : Tells t [] [] where
  leads _ _ h := by cases h
  pending _ := iff_of_false nofun List.not_mem_nil

/-- A link becomes pending. -/
theorem Tells.cons_pending (h : Tells t pending seen) (path : List String) :
    Tells t (path :: pending) ((path, none) :: seen) where
  leads other q hlookup := by
    rw [List.lookup_cons] at hlookup
    split at hlookup
    · cases hlookup
    · exact h.leads other q hlookup
  pending other := by
    rw [List.lookup_cons, List.mem_cons]
    split
    · next heq => exact iff_of_true rfl (.inl (beq_iff_eq.mp heq))
    · next hne => rw [h.pending, or_iff_right (ne_of_beq_false hne)]

/-- A pending link is resolved. -/
theorem Tells.cons_resolved {path : List String} (h : Tells t (path :: pending) seen)
    (hfresh : path ∉ pending) (hleads : t.LeadsTo path q) :
    Tells t pending ((path, some q) :: seen) where
  leads other r hlookup := by
    rw [List.lookup_cons] at hlookup
    split at hlookup
    · next heq =>
      rw [beq_iff_eq.mp heq, ← Option.some.inj (Option.some.inj hlookup)]
      exact hleads
    · exact h.leads other r hlookup
  pending other := by
    rw [List.lookup_cons]
    split
    · next heq =>
      rw [beq_iff_eq.mp heq]
      exact iff_of_false nofun hfresh
    · next hne => rw [h.pending, List.mem_cons, or_iff_right (ne_of_beq_false hne)]

/-- No pending link leads anywhere with fewer levels. -/
def Outruns (t : Tree) (pending : List (List String)) (n : Nat) : Prop :=
  ∀ path ∈ pending, ∀ m < n, ∀ q, ¬ t.LeadsWithin m path q

/-- Some number of levels is the smallest with which a link leads to its place. -/
theorem LeadsTo.fewest {path : List String} (h : t.LeadsTo path q) :
    ∃ n, t.LeadsWithin n path q ∧ ∀ m < n, ∀ r, ¬ t.LeadsWithin m path r := by
  classical
  have hspec := Nat.find_spec h
  refine ⟨Nat.find h, hspec, fun m hm r hr => Nat.find_min h hm ?_⟩
  rwa [← hr.unique hspec]

/-! ### Resolving -/

/-- Whether `expand` finds where components lead while some links are pending. -/
def Finds (t : Tree) (pending : List (List String))
    (expand : SeenLinks → Place → List String → Resolution × SeenLinks) : Prop :=
  ∀ n p components q seen, t.Resolves n p components q → t.Outruns pending n → t.Tells pending seen →
    ∃ seen', expand seen p components = (.place q, seen') ∧ t.Tells pending seen'

section

variable (hexpand : ∀ path, path ∈ t.entries.map Prod.fst → path ∉ pending →
  Finds t (path :: pending) expand)
include hexpand

/-- If links that are not pending are resolved, a link that leads somewhere is, where no pending one leads
anywhere with as few levels. -/
theorem resolveWith_follow (hc : IsStep c) (hlink : t.linkAt? (t.child p c) = some target)
    (htarget : t.Resolves n (t.targetStart p (componentsOf target)) (componentsOf target) q)
    (houtruns : t.Outruns pending (n + 1)) (htells : t.Tells pending seen) :
    ∃ seen', resolveWith t expand seen p (c :: rest) = resolveWith t expand seen' q rest
      ∧ t.Tells pending seen' := by
  have hleads := (leadsWithin_child_iff hlink).mpr htarget
  have hfresh : (t.child p c).path ∉ pending := fun hpending =>
    houtruns _ hpending n n.lt_succ_self q hleads
  rw [resolveWith_step hc, hlink]
  cases hlookup : seen.lookup (t.child p c).path with
  | some known =>
    cases known with
    | some q' =>
      obtain rfl := (htells.leads _ _ hlookup).unique ⟨n, hleads⟩
      exact ⟨seen, rfl, htells⟩
    | none => exact absurd ((htells.pending _).mp hlookup) hfresh
  | none =>
    -- the link is resolved with the fewest levels that it takes, so that it is not met again
    obtain ⟨k, hk, hfewest⟩ := LeadsTo.fewest ⟨n, hleads⟩
    have hkn : k ≤ n := Nat.not_lt.mp fun hlt => hfewest n hlt q hleads
    have houtruns' : t.Outruns ((t.child p c).path :: pending) k := by
      intro path hpath m hm
      rcases List.mem_cons.mp hpath with rfl | hpath
      · exact hfewest m hm
      · exact houtruns path hpath m (by omega)
    have hentry : (t.child p c).path ∈ t.entries.map Prod.fst :=
      List.mem_map_of_mem (mem_entries_of_linkAt? hlink).2.2
    obtain ⟨seen', hseen', htells'⟩ := hexpand _ hentry hfresh k _ _ q _
      ((leadsWithin_child_iff hlink).mp hk) houtruns' (htells.cons_pending _)
    dsimp only
    rw [hseen']
    exact ⟨_, rfl, htells'.cons_resolved hfresh ⟨n, hleads⟩⟩

/-- If links that are not pending are resolved, components are. -/
theorem finds_resolveWith : Finds t pending (resolveWith t expand) := by
  intro n p components q seen h houtruns htells
  induction h generalizing seen with
  | done => exact ⟨seen, rfl, htells⟩
  | stay hc _ ih =>
    rw [resolveWith_stay hc]
    exact ih seen houtruns htells
  | up _ ih =>
    rw [resolveWith_up]
    exact ih seen houtruns htells
  | enter hc hnode _ ih =>
    rw [resolveWith_step hc, hnode]
    exact ih seen houtruns htells
  | follow hc hlink htarget _ _ ih =>
    obtain ⟨seen', hfollow, htells'⟩ := resolveWith_follow hexpand hc hlink htarget houtruns htells
    rw [hfollow]
    exact ih seen' houtruns htells'

end

/-- No link is pending twice, so there are never more pending links than entries. -/
theorem length_lt_of_fresh {path : List String} (hnodup : pending.Nodup)
    (hentries : pending ⊆ t.entries.map Prod.fst) (hpath : path ∈ t.entries.map Prod.fst)
    (hfresh : path ∉ pending) : pending.length < t.entries.length := by
  have hle := (List.subperm_of_subset (List.nodup_cons.mpr ⟨hfresh, hnodup⟩)
    (List.cons_subset.mpr ⟨hpath, hentries⟩)).length_le
  rwa [List.length_cons, List.length_map, Nat.succ_le_iff] at hle

theorem finds_resolveFrom {links : Nat} (hnodup : pending.Nodup)
    (hentries : pending ⊆ t.entries.map Prod.fst)
    (hlinks : t.entries.length ≤ links + pending.length) :
    Finds t pending (resolveFrom t links) := by
  induction links generalizing pending with
  | zero =>
    refine finds_resolveWith fun path hpath hfresh => ?_
    have hlt := length_lt_of_fresh hnodup hentries hpath hfresh
    omega
  | succ links ih =>
    refine finds_resolveWith fun path hpath hfresh => ?_
    refine ih (List.nodup_cons.mpr ⟨hfresh, hnodup⟩) (List.cons_subset.mpr ⟨hpath, hentries⟩) ?_
    rw [List.length_cons]
    omega

/-- Resolving finds the place that components lead to. -/
theorem resolveFrom_eq_place (h : t.Resolves n p components q) :
    (resolveFrom t t.entries.length [] p components).1 = .place q := by
  have hfinds : Finds t [] (resolveFrom t t.entries.length) :=
    finds_resolveFrom List.nodup_nil (List.nil_subset _) (Nat.le_add_right _ _)
  have hnone : t.Outruns [] n := fun _ hpath => absurd hpath List.not_mem_nil
  obtain ⟨seen, hseen, -⟩ := hfinds n p components q [] h hnone tells_nil
  rw [hseen]

theorem resolve_eq (h : t.Resolves n .root components q) : t.resolve components = .ok q := by
  rw [resolve, resolveFrom_eq_place h]

end TypstLint.Tree
