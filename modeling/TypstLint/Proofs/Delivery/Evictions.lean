import Mathlib.Data.List.Induction
import TypstLint.Proofs.Delivery.Ledgers

set_option autoImplicit false

/-! # What a ledger gives up

Whatever claims, attempts and locks do to a ledger, its records are in the order in which they were last
claimed (`IsSorted`). A claim that enters a record gives up idle ones, first those whose last claim is the
longest ago, until there are no more records than there may be or none is idle (`GivesUp`). Nothing else
takes a record out of the ledger. -/

namespace TypstLint.Delivery

/-! ## Splitting the first elements off -/

section

variable {α : Type}

/-- The list is cut in two: before the cut the elements with the property are taken, and behind it all are
left. -/
theorem Ledger.splitFirst_spec (p : α → Bool) (n : Nat) (xs : List α) :
    ∃ before after, xs = before ++ after
      ∧ splitFirst p n xs = (before.filter p, before.filter (!p ·) ++ after)
      ∧ (before.filter p).length ≤ n ∧ ((before.filter p).length < n → after = []) := by
  induction xs generalizing n with
  | nil => exact ⟨[], [], rfl, rfl, Nat.zero_le n, fun _ => rfl⟩
  | cons x xs ih =>
    cases n with
    | zero => exact ⟨[], x :: xs, rfl, rfl, Nat.le_refl 0, fun h => absurd h (Nat.lt_irrefl 0)⟩
    | succ n =>
      rw [splitFirst]
      split
      · next hx =>
        obtain ⟨before, after, rfl, hsplit, hle, hlt⟩ := ih n
        refine ⟨x :: before, after, rfl, ?_, ?_, fun h => hlt ?_⟩
        · simp [hsplit, hx]
        · rw [List.filter_cons_of_pos hx]
          exact Nat.succ_le_succ hle
        · rw [List.filter_cons_of_pos hx] at h
          exact Nat.lt_of_succ_lt_succ h
      · next hx =>
        obtain ⟨before, after, rfl, hsplit, hle, hlt⟩ := ih (n + 1)
        refine ⟨x :: before, after, rfl, ?_, ?_, fun h => hlt ?_⟩
        · simp [hsplit, hx]
        · rwa [List.filter_cons_of_neg hx]
        · rwa [List.filter_cons_of_neg hx] at h

end

/-! ## Histories -/

/-- A change of a record, such as another state, or a lock that is taken or given back. It keeps the number
and the commit. -/
structure Record.Change where
  change : Record → Record
  serial_eq : ∀ r, (change r).serial = r.serial
  key_eq : ∀ r, (change r).key = r.key

/-- A record goes to another state. -/
def Record.Change.goTo (state : State) : Record.Change :=
  ⟨fun r => { r with state }, fun _ => rfl, fun _ => rfl⟩

/-- What happens to a ledger. -/
inductive Event where
  | claim (request : CheckRequest)
  | change (serial : Nat) (c : Record.Change)
  | forgetRetired

/-- The commit that is claimed. -/
def Event.claimed? : Event → Option CheckKey
  | claim request => some request.key
  | change .. | forgetRetired => none

/-- The claimed commits of a history, the last one first. -/
def claimed (history : List Event) : List CheckKey := (history.filterMap Event.claimed?).reverse

theorem claimed_append_singleton {history : List Event} {e : Event} :
    claimed (history ++ [e]) = e.claimed?.toList ++ claimed history := by
  cases h : e.claimed? <;> simp [claimed, h]

/-- Whether the last claim of a record is longer ago than that of another one. -/
def IsOlder (claims : List CheckKey) (r r' : Record) : Prop :=
  claims.idxOf r'.key < claims.idxOf r.key

namespace Ledger

/-- The ledger after something happened. -/
def next (l : Ledger) : Event → Ledger
  | .claim request => (l.claim request).2
  | .change serial c => l.update serial c.change
  | .forgetRetired => l.forgetRetired

/-- The ledger after a history, which starts with an empty one. -/
def after (limit : Int) (history : List Event) : Ledger := history.foldl next { limit }

theorem after_append_singleton {limit : Int} {history : List Event} {e : Event} :
    after limit (history ++ [e]) = (after limit history).next e := by
  rw [after, List.foldl_append]
  rfl

/-! ## The order of the records -/

variable {l l' : Ledger} {r r' : Record} {rs rs' : List Record} {claims : List CheckKey} {key : CheckKey}
  {request : CheckRequest}

/-- Records are in the order of their last claims, the one whose last claim is the longest ago first. -/
structure IsSorted (claims : List CheckKey) (rs : List Record) : Prop where
  sorted : rs.Pairwise (IsOlder claims)
  known : ∀ r ∈ rs, r.key ∈ claims

namespace IsSorted

theorem nil : IsSorted claims [] := ⟨.nil, List.forall_mem_nil _⟩

/-- Each commit has one record. -/
theorem nodup (h : IsSorted claims rs) : (rs.map (·.key)).Nodup := by
  refine List.pairwise_map.mpr (h.sorted.imp fun holder heq => ?_)
  rw [IsOlder, heq] at holder
  exact Nat.lt_irrefl _ holder

theorem sublist (h : IsSorted claims rs) (hsub : rs'.Sublist rs) : IsSorted claims rs' :=
  ⟨h.sorted.sublist hsub, fun r hr => h.known r (hsub.subset hr)⟩

/-- Only the commits matter for the order. -/
theorem of_keys (h : IsSorted claims rs) (hkeys : rs'.map (·.key) = rs.map (·.key)) :
    IsSorted claims rs' := by
  have hsorted : (rs.map (·.key)).Pairwise fun k k' => claims.idxOf k' < claims.idxOf k :=
    List.pairwise_map.mpr h.sorted
  rw [← hkeys] at hsorted
  refine ⟨(List.pairwise_map.mp hsorted :), fun r hr => ?_⟩
  have hmem : r.key ∈ rs.map (·.key) := hkeys ▸ List.mem_map_of_mem hr
  obtain ⟨r', hr', heq⟩ := List.mem_map.mp hmem
  exact heq ▸ h.known r' hr'

/-- The record that is claimed goes behind the others. -/
theorem push (h : IsSorted claims rs) (hne : ∀ r' ∈ rs, r'.key ≠ r.key) :
    IsSorted (r.key :: claims) (rs ++ [r]) := by
  constructor
  · refine List.pairwise_append.mpr ⟨?_, List.pairwise_singleton _ r, fun r₁ hr₁ r₂ hr₂ => ?_⟩
    · refine h.sorted.imp_of_mem fun hr₁ hr₂ holder => ?_
      rw [IsOlder, List.idxOf_cons_ne _ (hne _ hr₁).symm, List.idxOf_cons_ne _ (hne _ hr₂).symm]
      exact Nat.succ_lt_succ holder
    · rw [List.mem_singleton.mp hr₂, IsOlder, List.idxOf_cons_self,
        List.idxOf_cons_ne _ (hne r₁ hr₁).symm]
      exact Nat.succ_pos _
  · rw [List.forall_mem_append]
    exact ⟨fun r' hr' => List.mem_cons_of_mem _ (h.known r' hr'),
      List.forall_mem_singleton.mpr List.mem_cons_self⟩

end IsSorted

theorem key_ne_of_get? (h : l.get? key = none) : ∀ r ∈ l.records, r.key ≠ key := fun r hr heq =>
  List.find?_eq_none.mp h r hr (beq_iff_eq.mpr heq)

theorem isSorted_add (h : IsSorted claims l.records) (hnone : l.get? key = none) :
    IsSorted (key :: claims) (l.add key).records :=
  h.push (r := { serial := l.nextSerial, key }) (key_ne_of_get? hnone)

/-- The records up to a cut are given up if they are idle. Idle records are left behind the cut only if
there is room for them. -/
theorem evict_cut (l : Ledger) :
    ∃ before after, l.records = before ++ after
      ∧ l.evict.records = before.filter (!·.isIdle) ++ after
      ∧ ((l.evict.records.length : Int) ≤ l.limit ∨ after = [])
      ∧ (before.filter Record.isIdle ≠ [] → l.limit ≤ l.evict.records.length) := by
  obtain ⟨before, after, hcut, hsplit, hle, hlt⟩ := splitFirst_spec Record.isIdle
    ((l.records.length : Int) - l.limit).toNat l.records
  have hleft : l.evict.records = before.filter (!·.isIdle) ++ after := by
    rw [evict]
    exact congrArg Prod.snd hsplit
  have hlength : (before.filter Record.isIdle).length + l.evict.records.length = l.records.length := by
    rw [hleft, List.length_append, hcut, List.length_append, ← Nat.add_assoc, ← List.length_append,
      (List.filter_append_perm Record.isIdle before).length_eq]
  refine ⟨before, after, hcut, hleft, ?_, fun hgiven => ?_⟩
  · rcases Nat.lt_or_ge (before.filter Record.isIdle).length
      ((l.records.length : Int) - l.limit).toNat with hless | hge
    · exact .inr (hlt hless)
    · left
      omega
  · have hpos := List.length_pos_iff.mpr hgiven
    omega

theorem sublist_evict : l.evict.records.Sublist l.records := by
  obtain ⟨before, after, hcut, hleft, -⟩ := evict_cut l
  rw [hcut, hleft]
  exact List.filter_sublist.append_right after

theorem isSorted_touch (h : IsSorted claims l.records) :
    IsSorted (r.key :: claims) (l.touch r).records :=
  (h.sublist List.filter_sublist).push fun _ hr' => bne_iff_ne.mp (List.mem_filter.mp hr').2

/-- The numbers and the commits of the records. -/
def labels (l : Ledger) : List (Nat × CheckKey) := l.records.map fun r => (r.serial, r.key)

theorem map_key_of_labels (h : l'.labels = l.labels) :
    l'.records.map (·.key) = l.records.map (·.key) := by
  have hkeys (l : Ledger) : l.records.map (·.key) = l.labels.map Prod.snd := by
    rw [labels, List.map_map]
    rfl
  rw [hkeys, hkeys, h]

theorem labels_update (serial : Nat) (c : Record.Change) :
    (l.update serial c.change).labels = l.labels := by
  rw [labels, update, List.map_map]
  refine List.map_congr_left fun r _ => ?_
  rw [Function.comp_apply]
  split
  · rw [c.serial_eq, c.key_eq]
  · rfl

theorem limit_next (e : Event) : (l.next e).limit = l.limit := by
  cases e with
  | claim request =>
    rw [next, claim]
    split <;> rfl
  | change | forgetRetired => rfl

theorem isSorted_next (h : IsSorted claims l.records) (e : Event) :
    IsSorted (e.claimed?.toList ++ claims) (l.next e).records := by
  cases e with
  | claim request =>
    rw [next, claim]
    split
    · next hnone => exact (isSorted_add h hnone).sublist sublist_evict
    · next r hget =>
      have hkey : r.key = request.key := beq_iff_eq.mp (List.find?_some hget :)
      rw [Event.claimed?, ← hkey]
      exact isSorted_touch h
  | change serial c => exact h.of_keys (map_key_of_labels (labels_update serial c))
  | forgetRetired => exact h

theorem limit_after (limit : Int) (history : List Event) : (after limit history).limit = limit := by
  induction history using List.reverseRecOn with
  | nil => rfl
  | append_singleton history e ih => rw [after_append_singleton, limit_next, ih]

theorem isSorted_after (limit : Int) (history : List Event) :
    IsSorted (claimed history) (after limit history).records := by
  induction history using List.reverseRecOn with
  | nil => exact .nil
  | append_singleton history e ih =>
    rw [after_append_singleton, claimed_append_singleton]
    exact isSorted_next ih e

/-! ## Giving up records -/

/-- What becomes of the records of a ledger when a claim enters a record: those in `given` are given up.
`claims` has the claims so far. -/
structure GivesUp (claims : List CheckKey) (l : Ledger) (entered : Record) (given : List Record)
    (l' : Ledger) : Prop where
  /-- All other records stay. -/
  perm : (given ++ l'.records).Perm (l.records ++ [entered])
  enters : entered ∈ l'.records
  enough : (l'.records.length : Int) ≤ l.limit
    ∨ ∀ r ∈ l'.records, r.state.isTerminal = false ∨ r.lock.held = true
  /-- No more records are given up than have to be. -/
  needed : given ≠ [] → l.limit ≤ l'.records.length
  idle : ∀ r ∈ given, r.state.isTerminal = true ∧ r.lock.held = false
  /-- Those whose last claim is the longest ago go first. -/
  inOrder : given.Pairwise (IsOlder claims)
  oldest : ∀ r ∈ given, ∀ r' ∈ l'.records, r'.state.isTerminal = true → r'.lock.held = false →
    IsOlder claims r r'

theorem givesUp_enter (h : IsSorted claims l.records) (hnone : l.get? key = none) :
    ∃ given, GivesUp (key :: claims) l { serial := l.nextSerial, key } given (l.enter key) := by
  obtain ⟨before, after, hcut, hleft, henough, hneeded⟩ := evict_cut (l.add key)
  have hsorted := (isSorted_add h hnone).sorted
  rw [hcut] at hsorted
  obtain ⟨hbefore, -, hacross⟩ := List.pairwise_append.mp hsorted
  have hbusy : ∀ r ∈ before.filter (!·.isIdle), r.state.isTerminal = false ∨ r.lock.held = true := by
    intro r hr
    simpa [Record.isIdle] using (List.mem_filter.mp hr).2
  have hleft : (l.enter key).records = before.filter (!·.isIdle) ++ after := hleft
  refine ⟨before.filter Record.isIdle, ?_, ?_, ?_, hneeded, fun r hr => ?_,
    hbefore.sublist List.filter_sublist, fun r hr r' hr' hover hfree => ?_⟩
  · show List.Perm _ (l.add key).records
    rw [hleft, hcut, ← List.append_assoc]
    exact (List.filter_append_perm Record.isIdle before).append_right after
  · -- the new record is at its start, so it is not idle
    exact mem_records_evict (l := l.add key) (List.mem_append_right _ List.mem_cons_self) rfl
  · refine henough.imp_right fun hafter => ?_
    rw [hleft, hafter, List.append_nil]
    exact hbusy
  · simpa [Record.isIdle] using (List.mem_filter.mp hr).2
  · rw [hleft] at hr'
    rcases List.mem_append.mp hr' with hr' | hr'
    · rcases hbusy r' hr' with hgoing | hheld
      · rw [hover] at hgoing
        cases hgoing
      · rw [hfree] at hheld
        cases hheld
    · exact hacross r (List.mem_filter.mp hr).1 r' hr'

theorem perm_touch (h : IsSorted claims l.records) (hr : r ∈ l.records) :
    (l.touch r).records.Perm l.records := by
  refine (List.perm_ext_iff_of_nodup (isSorted_touch h).nodup.of_map h.nodup.of_map).mpr fun r' => ?_
  rw [touch, List.mem_append, List.mem_filter, List.mem_singleton, bne_iff_ne]
  constructor
  · rintro (⟨hmem, -⟩ | rfl)
    · exact hmem
    · exact hr
  · intro hmem
    by_cases hkey : r'.key = r.key
    · exact .inr (List.inj_on_of_nodup_map h.nodup hmem hr hkey)
    · exact .inl ⟨hmem, hkey⟩

/-- What becomes of a ledger: a claim enters a record, or makes the one of its commit the last one, whether
the check is done or not; and whatever else happens leaves all records where they are. -/
inductive Becomes (claims : List CheckKey) (l : Ledger) : Event → Ledger → Prop where
  | enters {request : CheckRequest} {l' : Ledger} (entered : Record) (given : List Record)
      (hnew : ∀ r ∈ l.records, r.key ≠ request.key) (hkey : entered.key = request.key)
      (hgiven : GivesUp (request.key :: claims) l entered given l') :
      Becomes claims l (.claim request) l'
  | touches {request : CheckRequest} {l' : Ledger} (r : Record) (hr : r ∈ l.records)
      (hkey : r.key = request.key) (hperm : l'.records.Perm l.records)
      (hlast : l'.records.getLast? = some r) :
      Becomes claims l (.claim request) l'
  | stays {e : Event} {l' : Ledger} (hclaim : e.claimed? = none)
      (hlabels : l'.labels = l.labels) :
      Becomes claims l e l'

theorem becomes_next (h : IsSorted claims l.records) (e : Event) : Becomes claims l e (l.next e) := by
  cases e with
  | claim request =>
    rw [next, claim]
    split
    · next hnone =>
      obtain ⟨given, hgiven⟩ := givesUp_enter h hnone
      exact .enters _ given (key_ne_of_get? hnone) rfl hgiven
    · next r hget =>
      have hr : r ∈ l.records := List.mem_of_find?_eq_some hget
      exact .touches r hr (beq_iff_eq.mp (List.find?_some hget :)) (perm_touch h hr)
        (List.getLast?_concat ..)
  | change serial c => exact .stays rfl (labels_update serial c)
  | forgetRetired => exact .stays rfl rfl

/-- After every history the ledger has one record for each of its commits, in the order of their last
claims, and what happens next takes a record away only if a claim enters one and too many are there: then
idle records go, those whose last claim is the longest ago first. -/
theorem becomes_of_history (limit : Int) (history : List Event) (e : Event) :
    (after limit history).limit = limit
      ∧ ((after limit history).records.map (·.key)).Nodup
      ∧ IsSorted (claimed history) (after limit history).records
      ∧ Becomes (claimed history) (after limit history) e (after limit (history ++ [e])) := by
  have hsorted := isSorted_after limit history
  refine ⟨limit_after limit history, hsorted.nodup, hsorted, ?_⟩
  rw [after_append_singleton]
  exact becomes_next hsorted e

-- A claim that is answered with nothing new counts, so the second one of two finished checks goes first.
example :
    let request (sha : String) : CheckRequest :=
      { installation := 7, repository := ⟨"typst/packages"⟩, headSha := sha }
    (after 2 [.claim (request "a"), .change 0 (.goTo .done), .claim (request "b"),
      .change 1 (.goTo .done), .claim (request "a"), .claim (request "c")]).records.map (·.key.sha)
      = ["a", "c"] := by
  decide

end Ledger

end TypstLint.Delivery
