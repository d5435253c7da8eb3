import Mathlib.Data.Fintype.Card
import Mathlib.Data.Fintype.EquivFin
import Mathlib.Data.Fintype.Sets
import Mathlib.Logic.Relation
import TypstLint.Proofs.Tree.Resolves

set_option autoImplicit false

/-! # Links that lead back to themselves

Components circle if a link on the way, or in its target, is met again while it is resolved (`Circles`).
Components that do not lead anywhere circle (`ends_of_nodup`), and resolving finds where they do
(`resolve_eq_error_iff`). No link leads back to itself exactly if every link leads somewhere
(`noLoops_iff`). -/

namespace TypstLint.Tree

/-- Components circle while some links are pending: from a place they lead to one of these at `q`, and
`behind` is what comes behind it, in the targets that the way is in and after them. -/
inductive Circles (t : Tree) : List (List String) → Place → List String → Place → List String → Prop
  | stay {pending : List (List String)} {p q : Place} {c : String} {rest behind : List String}
      (hc : c = "" ∨ c = ".") (hrest : Circles t pending p rest q behind) :
      Circles t pending p (c :: rest) q behind
  | up {pending : List (List String)} {p q : Place} {rest behind : List String}
      (hrest : Circles t pending (t.parent p) rest q behind) :
      Circles t pending p (".." :: rest) q behind
  | enter {pending : List (List String)} {p q : Place} {c : String} {rest behind : List String}
      (hc : IsStep c) (hnode : t.linkAt? (t.child p c) = none)
      (hrest : Circles t pending (t.child p c) rest q behind) :
      Circles t pending p (c :: rest) q behind
  | met {pending : List (List String)} {p : Place} {c target : String} {rest : List String}
      (hc : IsStep c) (hlink : t.linkAt? (t.child p c) = some target)
      (hpending : (t.child p c).path ∈ pending) : Circles t pending p (c :: rest) (t.child p c) rest
  | inside {pending : List (List String)} {p q : Place} {c target : String}
      {rest behind : List String} (hc : IsStep c) (hlink : t.linkAt? (t.child p c) = some target)
      (hfresh : (t.child p c).path ∉ pending)
      (htarget : Circles t ((t.child p c).path :: pending) (t.targetStart p (componentsOf target))
        (componentsOf target) q behind) : Circles t pending p (c :: rest) q (behind ++ rest)
  | beyond {pending : List (List String)} {n : Nat} {p q r : Place} {c target : String}
      {rest behind : List String} (hc : IsStep c) (hlink : t.linkAt? (t.child p c) = some target)
      (htarget : t.Resolves n (t.targetStart p (componentsOf target)) (componentsOf target) r)
      (hrest : Circles t pending r rest q behind) : Circles t pending p (c :: rest) q behind

variable {t : Tree} {n links : Nat} {p q r : Place} {path components rest behind : List String}
  {pending : List (List String)}
  {expand : SeenLinks → Place → List String → Resolution × SeenLinks}

/-! ## Leading somewhere and circling -/

/-- If components that circle lead somewhere, a pending link does, with fewer levels. -/
theorem Circles.exists_pending (h : t.Circles pending p components q behind)
    (hn : t.Resolves n p components r) : ∃ path ∈ pending, ∃ m < n, ∃ s, t.LeadsWithin m path s := by
  induction h generalizing n r with
  | stay hc _ ih => exact ih ((resolves_stay_iff hc).mp hn)
  | up _ ih => exact ih (resolves_up_iff.mp hn)
  | enter hc hnode _ ih => exact ih ((resolves_enter_iff hc hnode).mp hn)
  | met hc hlink hpending =>
    obtain ⟨k, s, rfl, htarget, -⟩ := (resolves_follow_iff hc hlink).mp hn
    exact ⟨_, hpending, k, k.lt_succ_self, s, (leadsWithin_child_iff hlink).mpr htarget⟩
  | inside hc hlink _ _ ih =>
    obtain ⟨k, s, rfl, htarget, -⟩ := (resolves_follow_iff hc hlink).mp hn
    have hleads := (leadsWithin_child_iff hlink).mpr htarget
    -- with the fewest levels that it takes, the link itself is not the one that is met
    obtain ⟨j, hj, hfewest⟩ := LeadsTo.fewest ⟨k, hleads⟩
    have hjk : j ≤ k := Nat.not_lt.mp fun hlt => hfewest k hlt s hleads
    obtain ⟨other, hother, m, hm, s', hs'⟩ := ih ((leadsWithin_child_iff hlink).mp hj)
    rcases List.mem_cons.mp hother with rfl | hother
    · exact absurd hs' (hfewest m hm s')
    · exact ⟨other, hother, m, by omega, s', hs'⟩
  | beyond hc hlink htarget _ ih =>
    obtain ⟨k, s, rfl, htarget', hrest⟩ := (resolves_follow_iff hc hlink).mp hn
    obtain rfl := htarget.unique htarget'
    exact ih hrest

/-- Components that circle by themselves lead nowhere. -/
theorem Circles.not_resolves (h : t.Circles [] p components q behind) : ¬ t.Resolves n p components r := by
  intro hn
  obtain ⟨path, hpath, -⟩ := h.exists_pending hn
  cases hpath

/-- Whether all components lead somewhere or circle while some links are pending. -/
def Ends (t : Tree) (pending : List (List String)) : Prop := ∀ p components,
  (∃ n q, t.Resolves n p components q) ∨ ∃ q behind, t.Circles pending p components q behind

theorem ends_of_fresh (h : ∀ path ∈ t.entries.map Prod.fst, path ∉ pending → t.Ends (path :: pending)) :
    t.Ends pending := by
  intro p components
  induction components generalizing p with
  | nil => exact .inl ⟨0, p, .done⟩
  | cons c rest ih =>
    rcases step_cases c with hc | rfl | hc
    · exact (ih p).imp (fun ⟨n, q, hn⟩ => ⟨n, q, .stay hc hn⟩)
        fun ⟨q, behind, hq⟩ => ⟨q, behind, .stay hc hq⟩
    · exact (ih (t.parent p)).imp (fun ⟨n, q, hn⟩ => ⟨n, q, .up hn⟩)
        fun ⟨q, behind, hq⟩ => ⟨q, behind, .up hq⟩
    · cases hlink : t.linkAt? (t.child p c) with
      | none =>
        exact (ih (t.child p c)).imp (fun ⟨n, q, hn⟩ => ⟨n, q, .enter hc hlink hn⟩)
          fun ⟨q, behind, hq⟩ => ⟨q, behind, .enter hc hlink hq⟩
      | some target =>
        by_cases hpending : (t.child p c).path ∈ pending
        · exact .inr ⟨_, rest, .met hc hlink hpending⟩
        have hentry : (t.child p c).path ∈ t.entries.map Prod.fst :=
          List.mem_map_of_mem (mem_entries_of_linkAt? hlink).2.2
        rcases h _ hentry hpending (t.targetStart p (componentsOf target)) (componentsOf target) with
          ⟨m, r, hr⟩ | ⟨q, behind, hq⟩
        · exact (ih r).imp (fun ⟨n, q, hn⟩ => ⟨_, q, .follow_max hc hlink hr hn⟩)
            fun ⟨q, behind, hq⟩ => ⟨q, behind, .beyond hc hlink hr hq⟩
        · exact .inr ⟨q, behind ++ rest, .inside hc hlink hpending hq⟩

/-- Components lead somewhere or circle, because no more links can become pending than there are. -/
theorem ends_of_nodup (hnodup : pending.Nodup) (hentries : pending ⊆ t.entries.map Prod.fst) :
    t.Ends pending := by
  induction hlinks : t.entries.length - pending.length generalizing pending with
  | zero =>
    refine ends_of_fresh fun path hpath hfresh => ?_
    have hlt := length_lt_of_fresh hnodup hentries hpath hfresh
    omega
  | succ links ih =>
    refine ends_of_fresh fun path hpath hfresh => ?_
    refine ih (List.nodup_cons.mpr ⟨hfresh, hnodup⟩) (List.cons_subset.mpr ⟨hpath, hentries⟩) ?_
    rw [List.length_cons]
    omega

theorem resolves_or_circles (t : Tree) (p : Place) (components : List String) :
    (∃ n q, t.Resolves n p components q) ∨ ∃ q behind, t.Circles [] p components q behind :=
  ends_of_nodup List.nodup_nil (List.nil_subset _) p components

/-- Components circle as well with others before them that lead to where they start. -/
theorem Circles.append (h : t.Circles pending r rest q behind) (hr : t.Resolves n p components r) :
    t.Circles pending p (components ++ rest) q behind := by
  induction hr with
  | done => exact h
  | stay hc _ ih => exact .stay hc (ih h)
  | up _ ih => exact .up (ih h)
  | enter hc hnode _ ih => exact .enter hc hnode (ih h)
  | follow hc hlink htarget _ _ ih => exact .beyond hc hlink htarget (ih h)

/-! ## Resolving -/

/-- Whether `expand` finds where components circle while links are pending that lead nowhere. -/
def FindsCircles (t : Tree) (pending : List (List String))
    (expand : SeenLinks → Place → List String → Resolution × SeenLinks) : Prop :=
  ∀ p components q behind seen, t.Circles pending p components q behind →
    (∀ path ∈ pending, ∀ r, ¬ t.LeadsTo path r) → t.Tells pending seen →
    (expand seen p components).1 = .loop q behind

/-- A link whose target circles leads nowhere, as the pending links do. -/
theorem Circles.not_leadsTo {c target : String} (hlink : t.linkAt? (t.child p c) = some target)
    (htarget : t.Circles ((t.child p c).path :: pending) (t.targetStart p (componentsOf target))
      (componentsOf target) q behind)
    (hnowhere : ∀ path ∈ pending, ∀ r, ¬ t.LeadsTo path r) : ¬ t.LeadsTo (t.child p c).path r := by
  intro hleads
  obtain ⟨k, hk, hfewest⟩ := hleads.fewest
  obtain ⟨other, hother, m, hm, s, hs⟩ := htarget.exists_pending ((leadsWithin_child_iff hlink).mp hk)
  rcases List.mem_cons.mp hother with rfl | hother
  · exact hfewest m hm s hs
  · exact hnowhere other hother s ⟨m, hs⟩

theorem findsCircles_resolveWith
    (hfinds : ∀ path ∈ t.entries.map Prod.fst, path ∉ pending → Finds t (path :: pending) expand)
    (hexpand : ∀ path ∈ t.entries.map Prod.fst, path ∉ pending →
      FindsCircles t (path :: pending) expand) :
    FindsCircles t pending (resolveWith t expand) := by
  intro p components q behind seen h hnowhere htells
  induction h generalizing seen with
  | stay hc _ ih =>
    rw [resolveWith_stay hc]
    exact ih hfinds hexpand seen hnowhere htells
  | up _ ih =>
    rw [resolveWith_up]
    exact ih hfinds hexpand seen hnowhere htells
  | enter hc hnode _ ih =>
    rw [resolveWith_step hc, hnode]
    exact ih hfinds hexpand seen hnowhere htells
  | met hc hlink hpending =>
    rw [resolveWith_step hc, hlink, (htells.pending _).mpr hpending]
  | @inside pending p q c target rest behind hc hlink hfresh htarget _ =>
    have hleads (r : Place) : ¬ t.LeadsTo (t.child p c).path r := htarget.not_leadsTo hlink hnowhere
    have hentry : (t.child p c).path ∈ t.entries.map Prod.fst :=
      List.mem_map_of_mem (mem_entries_of_linkAt? hlink).2.2
    rw [resolveWith_step hc, hlink]
    cases hlookup : seen.lookup (t.child p c).path with
    | some known =>
      cases known with
      | some r => exact absurd (htells.leads _ _ hlookup) (hleads r)
      | none => exact absurd ((htells.pending _).mp hlookup) hfresh
    | none =>
      have hloop := hexpand _ hentry hfresh _ _ q behind _ htarget
        (List.forall_mem_cons.mpr ⟨hleads, hnowhere⟩) (htells.cons_pending _)
      dsimp only
      split
      · next hexpanded =>
        rw [hexpanded] at hloop
        obtain ⟨rfl, rfl⟩ := Resolution.loop.inj hloop
        rfl
      · next hexpanded =>
        rw [hexpanded] at hloop
        cases hloop
  | beyond hc hlink htarget _ ih =>
    obtain ⟨seen', hfollow, htells'⟩ := resolveWith_follow hfinds hc hlink htarget
      (fun path hpath m _ r hm => hnowhere path hpath r ⟨m, hm⟩) htells
    rw [hfollow]
    exact ih hfinds hexpand seen' hnowhere htells'

theorem findsCircles_resolveFrom (hnodup : pending.Nodup)
    (hentries : pending ⊆ t.entries.map Prod.fst)
    (hlinks : t.entries.length ≤ links + pending.length) :
    FindsCircles t pending (resolveFrom t links) := by
  induction links generalizing pending with
  | zero =>
    have hnone (path : List String) (hpath : path ∈ t.entries.map Prod.fst) : ¬ path ∉ pending :=
      fun hfresh => by
        have hlt := length_lt_of_fresh hnodup hentries hpath hfresh
        omega
    exact findsCircles_resolveWith (fun path hpath hfresh => absurd hfresh (hnone path hpath))
      fun path hpath hfresh => absurd hfresh (hnone path hpath)
  | succ links ih =>
    have hmore (path : List String) : t.entries.length ≤ links + (path :: pending).length := by
      rw [List.length_cons]
      omega
    refine findsCircles_resolveWith (fun path hpath hfresh => ?_) fun path hpath hfresh => ?_
    · exact finds_resolveFrom (List.nodup_cons.mpr ⟨hfresh, hnodup⟩)
        (List.cons_subset.mpr ⟨hpath, hentries⟩) (hmore path)
    · exact ih (List.nodup_cons.mpr ⟨hfresh, hnodup⟩) (List.cons_subset.mpr ⟨hpath, hentries⟩)
        (hmore path)

theorem resolveFrom_eq_loop (h : t.Circles [] p components q behind) :
    (resolveFrom t t.entries.length [] p components).1 = .loop q behind :=
  findsCircles_resolveFrom List.nodup_nil (List.nil_subset _) (Nat.le_add_right _ _) p components q behind
    [] h (fun _ hpath => absurd hpath List.not_mem_nil) tells_nil

/-- Resolving finds a place exactly if the components lead there. -/
theorem resolveFrom_eq_place_iff : (resolveFrom t t.entries.length [] p components).1 = .place q
    ↔ ∃ n, t.Resolves n p components q := by
  refine ⟨fun hplace => ?_, fun ⟨n, hn⟩ => resolveFrom_eq_place hn⟩
  rcases resolves_or_circles t p components with ⟨n, r, hn⟩ | ⟨r, behind, hr⟩
  · rw [resolveFrom_eq_place hn] at hplace
    exact ⟨n, Resolution.place.inj hplace ▸ hn⟩
  · rw [resolveFrom_eq_loop hr] at hplace
    cases hplace

/-- Components circle in one way at most. -/
theorem Circles.unique (h : t.Circles [] p components q behind)
    (h' : t.Circles [] p components r rest) : q = r ∧ behind = rest :=
  Resolution.loop.inj ((resolveFrom_eq_loop h).symm.trans (resolveFrom_eq_loop h'))

/-- Whether there are more links on the way to a place than a walk follows. -/
def TooManyLinks (t : Tree) (p : Place) : Prop :=
  walkFrom t maxLinks ⟨p.above, []⟩ p.path = .error .loop

instance (t : Tree) (p : Place) : Decidable (t.TooManyLinks p) :=
  inferInstanceAs (Decidable (_ = _))

/-- Resolving fails if the components circle, unless what is behind leads out of the circle. -/
theorem resolve_eq_error_iff {e : Fault} : t.resolve components = .error e
    ↔ e = .linkLoop ∧ ∃ q behind, t.Circles [] .root components q behind
      ∧ t.TooManyLinks (t.descend q behind) := by
  rcases resolves_or_circles t .root components with ⟨n, r, hr⟩ | ⟨q, behind, h⟩
  · rw [resolve_eq hr]
    constructor
    · rintro ⟨⟩
    · rintro ⟨-, q, behind, h, -⟩
      exact absurd hr h.not_resolves
  · rw [resolve, resolveFrom_eq_loop h]
    dsimp only
    split
    · next hwalk =>
      constructor
      · intro heq
        exact ⟨(Except.error.inj heq).symm, q, behind, h, hwalk⟩
      · rintro ⟨rfl, -⟩
        rfl
    · next hwalk =>
      constructor
      · rintro ⟨⟩
      · rintro ⟨-, q', behind', h', hmany⟩
        obtain ⟨rfl, rfl⟩ := h.unique h'
        exact absurd hmany hwalk

end TypstLint.Tree

/-! ## Trees in which no link leads back to itself

A link leads back to itself if the way to its target meets it again, or meets a link whose way does. In a
tree without such links every link leads somewhere, and only there. -/

namespace TypstLint.Tree

/-- The way to the target of one link meets another link. -/
def Meets (t : Tree) (path other : List String) : Prop :=
  ∃ target before c after n p, t.linkAt? ⟨0, path⟩ = some target
    ∧ componentsOf target = before ++ c :: after
    ∧ t.Resolves n (t.targetStart ⟨0, path.dropLast⟩ (componentsOf target)) before p
    ∧ IsStep c ∧ (t.linkAt? (t.child p c)).isSome ∧ (t.child p c).path = other

/-- Whether no link leads back to itself. -/
def NoLoops (t : Tree) : Prop := ∀ path, ¬ Relation.TransGen t.Meets path path

variable {t : Tree} {n : Nat} {start q : Place} {path other components : List String}

/-- If the links that are met lead somewhere, the components do. -/
theorem exists_resolves (h : ∀ before c after m p, components = before ++ c :: after →
    t.Resolves m start before p → IsStep c → (t.linkAt? (t.child p c)).isSome →
    ∃ r, t.LeadsTo (t.child p c).path r) : ∃ n q, t.Resolves n start components q := by
  induction components using List.reverseRecOn with
  | nil => exact ⟨0, start, .done⟩
  | append_singleton before c ih =>
    obtain ⟨m, p, hp⟩ := ih fun first c' after m p heq => h first c' (after ++ [c]) m p (by simp [heq])
    suffices hlast : ∃ n q, t.Resolves n p [c] q by
      obtain ⟨n, q, hq⟩ := hlast
      exact ⟨max m n, q, (hp.mono (m.le_max_left n)).append (hq.mono (m.le_max_right n))⟩
    rcases step_cases c with hc | rfl | hc
    · exact ⟨0, p, .stay hc .done⟩
    · exact ⟨0, t.parent p, .up .done⟩
    · cases hlink : t.linkAt? (t.child p c) with
      | none => exact ⟨0, t.child p c, .enter hc hlink .done⟩
      | some target =>
        obtain ⟨r, k, hr⟩ := h before c [] m p rfl hp hc (by rw [hlink]; rfl)
        exact ⟨k + 1, r, .follow hc hlink ((leadsWithin_child_iff hlink).mp hr) .done⟩

/-- A link that is met leads somewhere with fewer levels. -/
theorem LeadsWithin.of_meets (h : t.LeadsWithin n path q) (hmeets : t.Meets path other) :
    ∃ m < n, ∃ r, t.LeadsWithin m other r := by
  obtain ⟨target, before, c, after, m, p, hlink, hsplit, hbefore, hc, hsome, rfl⟩ := hmeets
  obtain ⟨target', hlink', hq⟩ := h
  obtain rfl := Option.some.inj (hlink.symm.trans hlink')
  obtain ⟨next, hnext⟩ := Option.isSome_iff_exists.mp hsome
  rw [hsplit] at hq hbefore
  obtain ⟨p', hp', hrest⟩ := resolves_append_iff.mp hq
  obtain rfl := hp'.unique hbefore
  obtain ⟨k, r, rfl, hr, -⟩ := (resolves_follow_iff hc hnext).mp hrest
  exact ⟨k, k.lt_succ_self, r, (leadsWithin_child_iff hnext).mpr hr⟩

theorem LeadsWithin.of_transGen (h : t.LeadsWithin n path q)
    (hmeets : Relation.TransGen t.Meets path other) : ∃ m < n, ∃ r, t.LeadsWithin m other r := by
  induction hmeets with
  | single hmeets => exact h.of_meets hmeets
  | tail _ hmeets ih =>
    obtain ⟨m, hm, r, hr⟩ := ih
    obtain ⟨k, hk, s, hs⟩ := hr.of_meets hmeets
    exact ⟨k, hk.trans hm, s, hs⟩

/-- If the links that are met lead somewhere, the link does. -/
theorem leadsTo_of_meets (hlink : (t.linkAt? ⟨0, path⟩).isSome)
    (h : ∀ other, t.Meets path other → ∃ q, t.LeadsTo other q) : ∃ q, t.LeadsTo path q := by
  obtain ⟨target, htarget⟩ := Option.isSome_iff_exists.mp hlink
  obtain ⟨n, q, hq⟩ := exists_resolves fun before c after m p hsplit hbefore hc hsome =>
    h _ ⟨target, before, c, after, m, p, htarget, hsplit, hbefore, hc, hsome, rfl⟩
  exact ⟨q, n, target, htarget, hq⟩

theorem Meets.isSome (h : t.Meets path other) :
    (t.linkAt? ⟨0, path⟩).isSome ∧ (t.linkAt? ⟨0, other⟩).isSome := by
  obtain ⟨target, before, c, after, n, p, hlink, -, -, -, hsome, rfl⟩ := h
  obtain ⟨next, hnext⟩ := Option.isSome_iff_exists.mp hsome
  refine ⟨by rw [hlink]; rfl, ?_⟩
  rwa [(eq_of_linkAt?_child hnext).1] at hsome ⊢

/-! ### Links that lead somewhere -/

theorem mem_names_of_isSome (h : (t.linkAt? ⟨0, path⟩).isSome) : path ∈ t.entries.map Prod.fst := by
  obtain ⟨target, hlink⟩ := Option.isSome_iff_exists.mp h
  exact List.mem_map_of_mem (mem_entries_of_linkAt? hlink).2.2

/-- The paths of a tree's entries. -/
abbrev Names (t : Tree) := { path // path ∈ t.entries.map Prod.fst }

/-- The way to the target of the second entry meets the first one, or one whose way does. -/
def OnTheWay (t : Tree) (entry entry' : t.Names) : Prop := Relation.TransGen t.Meets entry'.1 entry.1

instance (t : Tree) : IsTrans t.Names t.OnTheWay where
  trans _ _ _ h h' := Relation.TransGen.trans h' h

theorem NoLoops.wellFounded (h : t.NoLoops) : WellFounded t.OnTheWay :=
  have : Std.Irrefl t.OnTheWay := ⟨fun entry => h entry.1⟩
  Finite.wellFounded_of_trans_of_irrefl t.OnTheWay

theorem NoLoops.leadsTo (h : t.NoLoops) (hlink : (t.linkAt? ⟨0, path⟩).isSome) :
    ∃ q, t.LeadsTo path q := by
  have hall (entry : t.Names) : (t.linkAt? ⟨0, entry.1⟩).isSome → ∃ q, t.LeadsTo entry.1 q := by
    induction entry using h.wellFounded.induction with
    | _ entry ih =>
      intro hlink
      refine leadsTo_of_meets hlink fun other hmeets => ?_
      exact ih ⟨other, mem_names_of_isSome hmeets.isSome.2⟩ (.single hmeets) hmeets.isSome.2
  exact hall ⟨path, mem_names_of_isSome hlink⟩ hlink

/-- No link leads back to itself exactly if every link leads somewhere. -/
theorem noLoops_iff : t.NoLoops ↔ ∀ path, (t.linkAt? ⟨0, path⟩).isSome → ∃ q, t.LeadsTo path q := by
  refine ⟨fun h _ => h.leadsTo, fun h path hloop => ?_⟩
  obtain ⟨other, hmeets, -⟩ := Relation.TransGen.head'_iff.mp hloop
  obtain ⟨q, hq⟩ := h path hmeets.isSome.1
  obtain ⟨n, hn, hfewest⟩ := hq.fewest
  obtain ⟨m, hm, r, hr⟩ := hn.of_transGen hloop
  exact hfewest m hm r hr

/-! ### Looking for loops -/

/-- Where the link at a path leads, as resolving finds it. -/
def target? (t : Tree) (path : List String) : Option Place :=
  match t.linkAt? ⟨0, path⟩ with
  | none => none
  | some target =>
    match (resolveFrom t t.entries.length [] (t.targetStart ⟨0, path.dropLast⟩ (componentsOf target))
      (componentsOf target)).1 with
    | .place q => some q
    | .loop _ _ => none

theorem target?_eq_some_iff : t.target? path = some q ↔ t.LeadsTo path q := by
  simp only [LeadsTo, LeadsWithin]
  unfold target?
  split
  · next hlink => simp [hlink]
  · next target hlink =>
    have hq : (∃ n target', t.linkAt? ⟨0, path⟩ = some target'
          ∧ t.Resolves n (t.targetStart ⟨0, path.dropLast⟩ (componentsOf target'))
            (componentsOf target') q)
        ↔ (resolveFrom t t.entries.length [] (t.targetStart ⟨0, path.dropLast⟩ (componentsOf target))
            (componentsOf target)).1 = .place q := by
      simp [hlink, resolveFrom_eq_place_iff]
    rw [hq]
    split
    · next q' hfound => simp [hfound]
    · next q' behind hfound => simp [hfound]

instance (t : Tree) (path : List String) (q : Place) : Decidable (t.LeadsTo path q) :=
  decidable_of_iff _ target?_eq_some_iff

/-- It is enough to look where the entries lead. -/
theorem noLoops_iff_entries : t.NoLoops ↔
    ∀ entry ∈ t.entries, (t.linkAt? ⟨0, entry.1⟩).isSome → (t.target? entry.1).isSome := by
  simp only [noLoops_iff, Option.isSome_iff_exists (x := t.target? _), target?_eq_some_iff]
  constructor
  · exact fun h entry _ => h entry.1
  · intro h path hlink
    obtain ⟨entry, hentry, rfl⟩ := List.mem_map.mp (mem_names_of_isSome hlink)
    exact h entry hentry hlink

instance (t : Tree) : Decidable t.NoLoops := decidable_of_iff' _ noLoops_iff_entries

end TypstLint.Tree
