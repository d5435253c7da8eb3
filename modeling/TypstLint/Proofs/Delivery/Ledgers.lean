import TypstLint.Proofs.Delivery.Held
import TypstLint.Proofs.Distinct

set_option autoImplicit false

/-! # Ledgers of any size

A ledger that has too many records gives idle ones up, also when deliveries still wait for them. A commit
can then have several records, but at most one of them in the ledger. Each record has a number of its own
(`IsSound`), and whatever deliveries do in their turns, they leave the records that others work on as
they are (`Passes`). -/

namespace TypstLint.Delivery

/-! ## What becomes of a record -/

/-- What deliveries leave alone of a record that is not their own. They may wait for its lock. -/
structure Record.IsLike (r r' : Record) : Prop where
  serial_eq : r'.serial = r.serial
  key_eq : r'.key = r.key
  state_eq : r'.state = r.state
  attempts_eq : r'.attempts = r.attempts
  held_eq : r'.lock.held = r.lock.held

namespace Record.IsLike

variable {r r₁ r₂ r₃ : Record}

theorem refl (r : Record) : r.IsLike r := ⟨rfl, rfl, rfl, rfl, rfl⟩

theorem trans (h : r₁.IsLike r₂) (h' : r₂.IsLike r₃) : r₁.IsLike r₃ where
  serial_eq := h'.serial_eq.trans h.serial_eq
  key_eq := h'.key_eq.trans h.key_eq
  state_eq := h'.state_eq.trans h.state_eq
  attempts_eq := h'.attempts_eq.trans h.attempts_eq
  held_eq := h'.held_eq.trans h.held_eq

end Record.IsLike

namespace Ledger

variable {l l₁ l₂ l₃ l' : Ledger} {own : Option Nat} {n : Nat} {r r' : Record} {f : Record → Record}
  {key : CheckKey}

/-- The records that deliveries work on or wait for, whether they were given up or not. -/
def all (l : Ledger) : List Record := l.records ++ l.retired

/-- Records are told apart by their numbers, and those that were not given up also by their commits. A
check that nobody works on is over, unless there was no attempt yet. -/
structure IsSound (l : Ledger) : Prop where
  serials : ∀ r ∈ l.all, ∀ r' ∈ l.all, r.serial = r'.serial → r = r'
  old : ∀ r ∈ l.all, r.serial < l.nextSerial
  keys : ∀ r ∈ l.records, ∀ r' ∈ l.records, r.key = r'.key → r = r'
  atEnd : ∀ r ∈ l.all, r.lock.held = false → r.attempts ≠ 0 → r.state.isTerminal = true

/-- Whether a record was not there yet: its number is new, and there was no attempt with it yet. -/
structure IsNew (l : Ledger) (r : Record) : Prop where
  serial_le : l.nextSerial ≤ r.serial
  attempts_eq : r.attempts = 0
  state_eq : r.state = .received
  held_eq : r.lock.held = false

/-- What becomes of the ledger while a delivery has the desk that has the lock of the record `own`, if of
any. The records that others work on stay, nothing but new records comes, and numbers keep their
commits. -/
structure Passes (own : Option Nat) (l l' : Ledger) : Prop where
  stays : ∀ r ∈ l.all, own ≠ some r.serial → r.lock.held = true → ∃ r' ∈ l'.all, r.IsLike r'
  came : ∀ r' ∈ l'.all, own ≠ some r'.serial → (∃ r ∈ l.all, r.IsLike r') ∨ l.IsNew r'
  keyed : ∀ r' ∈ l'.all, r'.serial < l.nextSerial →
    ∃ r ∈ l.all, r.serial = r'.serial ∧ r.key = r'.key
  later : l.nextSerial ≤ l'.nextSerial

/-! ## Sound ledgers -/

theorem mem_all_of_mem_records (hr : r ∈ l.records) : r ∈ l.all := List.mem_append_left _ hr

namespace IsSound

theorem empty (limit : Int) (nextSerial : Nat) : IsSound { limit, nextSerial } :=
  ⟨List.forall_mem_nil _, List.forall_mem_nil _, List.forall_mem_nil _, List.forall_mem_nil _⟩

theorem find?_iff (h : l.IsSound) : l.find? n = some r ↔ r ∈ l.all ∧ r.serial = n := by
  constructor
  · intro hfind
    exact ⟨List.mem_of_find?_eq_some hfind, serial_of_find? hfind⟩
  · rintro ⟨hmem, rfl⟩
    exact find?_of_unique hmem (beq_self_eq_true _) fun r' hr' hserial =>
      h.serials r' hr' r hmem (beq_iff_eq.mp hserial)

/-- Records that are given up, or moved to another place, do no harm. -/
theorem of_subset (h : l.IsSound) (hall : l'.all ⊆ l.all) (hrecords : l'.records ⊆ l.records)
    (hnext : l'.nextSerial = l.nextSerial) : l'.IsSound where
  serials r hr r' hr' := h.serials r (hall hr) r' (hall hr')
  old r hr := hnext ▸ h.old r (hall hr)
  keys r hr r' hr' := h.keys r (hrecords hr) r' (hrecords hr')
  atEnd r hr := h.atEnd r (hall hr)

end IsSound

/-! ## Passing -/

namespace Passes

theorem of_subset (hall : l'.all ⊆ l.all) (hheld : ∀ r ∈ l.all, r.lock.held = true → r ∈ l'.all)
    (hnext : l'.nextSerial = l.nextSerial) : Passes own l l' where
  stays r hr _ h := ⟨r, hheld r hr h, .refl r⟩
  came r hr _ := .inl ⟨r, hall hr, .refl r⟩
  keyed r hr _ := ⟨r, hall hr, rfl, rfl⟩
  later := Nat.le_of_eq hnext.symm

theorem refl (own : Option Nat) (l : Ledger) : Passes own l l :=
  .of_subset (List.Subset.refl _) (fun _ hr _ => hr) rfl

theorem trans (h : Passes own l₁ l₂) (h' : Passes own l₂ l₃) : Passes own l₁ l₃ where
  stays r hr hown hheld := by
    obtain ⟨r₂, hr₂, hlike⟩ := h.stays r hr hown hheld
    obtain ⟨r₃, hr₃, hlike'⟩ :=
      h'.stays r₂ hr₂ (hlike.serial_eq ▸ hown) (hlike.held_eq.trans hheld)
    exact ⟨r₃, hr₃, hlike.trans hlike'⟩
  came r₃ hr₃ hown := by
    rcases h'.came r₃ hr₃ hown with ⟨r₂, hr₂, hlike'⟩ | hnew
    · rcases h.came r₂ hr₂ (hlike'.serial_eq ▸ hown) with ⟨r, hr, hlike⟩ | hnew
      · exact .inl ⟨r, hr, hlike.trans hlike'⟩
      · exact .inr ⟨hlike'.serial_eq ▸ hnew.serial_le, hlike'.attempts_eq.trans hnew.attempts_eq,
          hlike'.state_eq.trans hnew.state_eq, hlike'.held_eq.trans hnew.held_eq⟩
    · exact .inr { hnew with serial_le := Nat.le_trans h.later hnew.serial_le }
  keyed r₃ hr₃ hserial := by
    obtain ⟨r₂, hr₂, hserial₂, hkey₂⟩ := h'.keyed r₃ hr₃ (Nat.lt_of_lt_of_le hserial h.later)
    obtain ⟨r, hr, hserial', hkey⟩ := h.keyed r₂ hr₂ (hserial₂ ▸ hserial)
    exact ⟨r, hr, hserial'.trans hserial₂, hkey.trans hkey₂⟩
  later := Nat.le_trans h.later h'.later

/-- Who leaves all records alone leaves all but one alone. -/
theorem some (h : Passes none l l') (n : Nat) : Passes (some n) l l' where
  stays r hr _ := h.stays r hr nofun
  came r hr _ := h.came r hr nofun
  keyed := h.keyed
  later := h.later

end Passes

/-! ## Changes of one record -/

theorem all_update : (l.update n f).all = l.all.map fun r => if r.serial == n then f r else r :=
  (List.map_append ..).symm

theorem mem_all_update (hr : r ∈ l.all) (hserial : r.serial = n) : f r ∈ (l.update n f).all := by
  rw [all_update]
  exact List.mem_map.mpr ⟨r, hr, if_pos (beq_iff_eq.mpr hserial)⟩

/-- A record behind a change is one that was changed, or one with another number. -/
theorem cases_update (hr' : r' ∈ (l.update n f).all) :
    ∃ r ∈ l.all, (r.serial = n ∧ r' = f r) ∨ (r.serial ≠ n ∧ r' = r) := by
  rw [all_update] at hr'
  obtain ⟨r, hr, rfl⟩ := List.mem_map.mp hr'
  refine ⟨r, hr, ?_⟩
  split
  · next hserial => exact .inl ⟨beq_iff_eq.mp hserial, rfl⟩
  · next hserial => exact .inr ⟨fun h => hserial (beq_iff_eq.mpr h), rfl⟩

theorem IsSound.update (h : l.IsSound)
    (hf : ∀ r ∈ l.all, r.serial = n → (f r).serial = n ∧ (f r).key = r.key)
    (hover : ∀ r ∈ l.all, r.serial = n → (f r).lock.held = false → (f r).attempts ≠ 0 →
      (f r).state.isTerminal = true) : (l.update n f).IsSound := by
  have hkept {r : Record} (hr : r ∈ l.all) :
      (if r.serial == n then f r else r).serial = r.serial
        ∧ (if r.serial == n then f r else r).key = r.key := by
    split
    · next hserial =>
      obtain ⟨hserial', hkey⟩ := hf r hr (beq_iff_eq.mp hserial)
      exact ⟨hserial'.trans (beq_iff_eq.mp hserial).symm, hkey⟩
    · exact ⟨rfl, rfl⟩
  refine ⟨fun r₁ hr₁ r₂ hr₂ heq => ?_, fun r' hr' => ?_, fun r₁ hr₁ r₂ hr₂ heq => ?_, fun r' hr' => ?_⟩
  · rw [all_update] at hr₁ hr₂
    obtain ⟨r, hr, rfl⟩ := List.mem_map.mp hr₁
    obtain ⟨r', hr', rfl⟩ := List.mem_map.mp hr₂
    rw [(hkept hr).1, (hkept hr').1] at heq
    rw [h.serials r hr r' hr' heq]
  · rw [all_update] at hr'
    obtain ⟨r, hr, rfl⟩ := List.mem_map.mp hr'
    rw [(hkept hr).1]
    exact h.old r hr
  · obtain ⟨r, hr, rfl⟩ := List.mem_map.mp hr₁
    obtain ⟨r', hr', rfl⟩ := List.mem_map.mp hr₂
    rw [(hkept (mem_all_of_mem_records hr)).2, (hkept (mem_all_of_mem_records hr')).2] at heq
    rw [h.keys r hr r' hr' heq]
  · obtain ⟨r, hr, ⟨hserial, rfl⟩ | ⟨-, rfl⟩⟩ := cases_update hr'
    · exact hover r hr hserial
    · exact h.atEnd r' hr

/-- Only the delivery whose record it is changes more of it than others may. -/
theorem passes_update (hf : ∀ r ∈ l.all, r.serial = n → (f r).serial = n ∧ (f r).key = r.key)
    (hlike : own ≠ some n → ∀ r ∈ l.all, r.serial = n → r.IsLike (f r)) :
    Passes own l (l.update n f) where
  stays r hr hown hheld := by
    by_cases hserial : r.serial = n
    · exact ⟨f r, mem_all_update hr hserial, hlike (hserial ▸ hown) r hr hserial⟩
    · refine ⟨r, ?_, .refl r⟩
      rw [all_update]
      exact List.mem_map.mpr ⟨r, hr, if_neg fun h => hserial (beq_iff_eq.mp h)⟩
  came r' hr' hown := by
    obtain ⟨r, hr, ⟨hserial, rfl⟩ | ⟨-, rfl⟩⟩ := cases_update hr'
    · rw [(hf r hr hserial).1] at hown
      exact .inl ⟨r, hr, hlike hown r hr hserial⟩
    · exact .inl ⟨r', hr, .refl r'⟩
  keyed r' hr' _ := by
    obtain ⟨r, hr, ⟨hserial, rfl⟩ | ⟨-, rfl⟩⟩ := cases_update hr'
    · obtain ⟨hserial', hkey⟩ := hf r hr hserial
      exact ⟨r, hr, hserial.trans hserial'.symm, hkey.symm⟩
    · exact ⟨r', hr, rfl, rfl⟩
  later := Nat.le_refl _

/-- A change of the lock of a record. -/
theorem IsSound.relock {f : Lock → Lock} (h : l.IsSound)
    (hover : ∀ r ∈ l.all, r.serial = n → (f r.lock).held = false → r.attempts ≠ 0 →
      r.state.isTerminal = true) : (l.update n fun r => { r with lock := f r.lock }).IsSound :=
  h.update (fun _ _ hserial => ⟨hserial, rfl⟩) hover

theorem passes_relock {f : Lock → Lock} :
    Passes (.some n) l (l.update n fun r => { r with lock := f r.lock }) :=
  passes_update (fun _ _ hserial => ⟨hserial, rfl⟩) fun hne => absurd rfl hne

/-- Who waits for a lock leaves it as it is. -/
theorem passes_relock_of_held {f : Lock → Lock} (hf : ∀ lock : Lock, (f lock).held = lock.held) :
    Passes own l (l.update n fun r => { r with lock := f r.lock }) :=
  passes_update (fun _ _ hserial => ⟨hserial, rfl⟩) fun _ r _ _ => ⟨rfl, rfl, rfl, rfl, hf r.lock⟩

/-! ## Records that are given up and forgotten -/

theorem all_forgetRetired_subset : l.forgetRetired.all ⊆ l.all :=
  List.append_subset.mpr ⟨List.subset_append_left _ _,
    List.Subset.trans (List.filter_subset_self _) (List.subset_append_right _ _)⟩

theorem IsSound.forgetRetired (h : l.IsSound) : l.forgetRetired.IsSound :=
  h.of_subset all_forgetRetired_subset (List.Subset.refl _) rfl

theorem passes_forgetRetired : Passes own l l.forgetRetired := by
  refine .of_subset all_forgetRetired_subset (fun r hr hheld => ?_) rfl
  rcases List.mem_append.mp hr with hr | hr
  · exact List.mem_append_left _ hr
  · refine List.mem_append_right _ (List.mem_filter.mpr ⟨hr, ?_⟩)
    rw [hheld, Bool.true_or]

theorem subset_splitFirst {α : Type} (p : α → Bool) (k : Nat) (xs : List α) :
    (splitFirst p k xs).1 ⊆ xs ∧ (splitFirst p k xs).2 ⊆ xs := by
  induction xs generalizing k with
  | nil => exact ⟨List.Subset.refl _, List.Subset.refl _⟩
  | cons x xs ih =>
    cases k with
    | zero => exact ⟨List.nil_subset _, List.Subset.refl _⟩
    | succ k =>
      rw [splitFirst]
      split
      · exact ⟨List.cons_subset_cons x (ih k).1, List.subset_cons_of_subset x (ih k).2⟩
      · exact ⟨List.subset_cons_of_subset x (ih (k + 1)).1, List.cons_subset_cons x (ih (k + 1)).2⟩

theorem records_evict_subset : l.evict.records ⊆ l.records := (subset_splitFirst _ _ _).2

theorem all_evict_subset : l.evict.all ⊆ l.all := by
  refine List.append_subset.mpr ⟨List.subset_append_of_subset_left _ records_evict_subset,
    List.append_subset.mpr ⟨List.subset_append_right _ _, List.subset_append_of_subset_left _ ?_⟩⟩
  exact List.Subset.trans (List.filter_subset_self _) (subset_splitFirst _ _ _).1

/-- A record that is not idle is not given up. -/
theorem mem_records_evict (hr : r ∈ l.records) (hidle : r.isIdle = false) : r ∈ l.evict.records :=
  mem_right_splitFirst hidle _ _ hr

theorem IsSound.evict (h : l.IsSound) : l.evict.IsSound :=
  h.of_subset all_evict_subset records_evict_subset rfl

theorem passes_evict : Passes own l l.evict := by
  refine .of_subset all_evict_subset (fun r hr hheld => ?_) rfl
  rcases List.mem_append.mp hr with hr | hr
  · refine mem_all_of_mem_records (mem_records_evict hr ?_)
    rw [Record.isIdle, hheld, Bool.not_true, Bool.and_false]
  · exact List.mem_append_right _ (List.mem_append_left _ hr)

/-! ## Claims -/

/-- A ledger with a record more. -/
def add (l : Ledger) (key : CheckKey) : Ledger :=
  { l with records := l.records ++ [{ serial := l.nextSerial, key }], nextSerial := l.nextSerial + 1 }

theorem mem_all_add : r ∈ (l.add key).all ↔ r ∈ l.all ∨ r = { serial := l.nextSerial, key } := by
  simp only [all, add, List.mem_append, List.mem_singleton]
  tauto

theorem IsSound.add (h : l.IsSound) (hnone : l.get? key = none) : (l.add key).IsSound := by
  refine ⟨fun r hr r' hr' heq => ?_, fun r hr => ?_, fun r hr r' hr' heq => ?_, fun r hr hheld => ?_⟩
  · -- no other record has the new number
    rcases mem_all_add.mp hr with hr | rfl <;> rcases mem_all_add.mp hr' with hr' | rfl
    · exact h.serials r hr r' hr' heq
    · exact absurd heq (Nat.ne_of_lt (h.old r hr))
    · exact absurd heq.symm (Nat.ne_of_lt (h.old r' hr'))
    · rfl
  · rcases mem_all_add.mp hr with hr | rfl
    · exact Nat.lt_succ_of_lt (h.old r hr)
    · exact Nat.lt_succ_self _
  · have hother {r : Record} (hr : r ∈ l.records) : r.key ≠ key := fun heq =>
      List.find?_eq_none.mp hnone r hr (beq_iff_eq.mpr heq)
    rcases List.mem_append.mp hr with hr | hr <;> rcases List.mem_append.mp hr' with hr' | hr'
    · exact h.keys r hr r' hr' heq
    · rw [List.mem_singleton.mp hr'] at heq
      exact absurd heq (hother hr)
    · rw [List.mem_singleton.mp hr] at heq
      exact absurd heq.symm (hother hr')
    · rw [List.mem_singleton.mp hr, List.mem_singleton.mp hr']
  · rcases mem_all_add.mp hr with hr | rfl
    · exact h.atEnd r hr hheld
    · exact fun hattempts => absurd rfl hattempts

theorem passes_add : Passes own l (l.add key) where
  stays r hr _ _ := ⟨r, mem_all_add.mpr (.inl hr), .refl r⟩
  came r hr _ := by
    rcases mem_all_add.mp hr with hr | rfl
    · exact .inl ⟨r, hr, .refl r⟩
    · exact .inr ⟨Nat.le_refl _, rfl, rfl, rfl⟩
  keyed r hr hserial := by
    rcases mem_all_add.mp hr with hr | rfl
    · exact ⟨r, hr, rfl, rfl⟩
    · exact absurd hserial (Nat.lt_irrefl _)
  later := Nat.le_succ _

theorem IsSound.mem_touch (h : l.IsSound) (hr : r ∈ l.records) :
    r' ∈ (l.touch r).records ↔ r' ∈ l.records := by
  rw [touch, List.mem_append, List.mem_filter, List.mem_singleton, bne_iff_ne]
  constructor
  · rintro (⟨hmem, -⟩ | rfl)
    · exact hmem
    · exact hr
  · intro hmem
    by_cases hkey : r'.key = r.key
    · exact .inr (h.keys r' hmem r hr hkey)
    · exact .inl ⟨hmem, hkey⟩

theorem IsSound.mem_all_touch (h : l.IsSound) (hr : r ∈ l.records) :
    r' ∈ (l.touch r).all ↔ r' ∈ l.all := by
  rw [all, List.mem_append, h.mem_touch hr, ← List.mem_append]
  rfl

theorem IsSound.touch (h : l.IsSound) (hr : r ∈ l.records) : (l.touch r).IsSound :=
  h.of_subset (fun _ => (h.mem_all_touch hr).mp) (fun _ => (h.mem_touch hr).mp) rfl

theorem IsSound.passes_touch (h : l.IsSound) (hr : r ∈ l.records) : Passes own l (l.touch r) :=
  .of_subset (fun _ => (h.mem_all_touch hr).mp) (fun _ hmem _ => (h.mem_all_touch hr).mpr hmem) rfl

/-- Whether a number is that of a commit, though its record may be forgotten already. -/
def Knows (l : Ledger) (n : Nat) (key : CheckKey) : Prop :=
  n < l.nextSerial ∧ ∀ r ∈ l.all, r.serial = n → r.key = key

theorem Knows.passes (h : l.Knows n key) (hpasses : Passes own l l') : l'.Knows n key := by
  refine ⟨Nat.lt_of_lt_of_le h.1 hpasses.later, fun r' hr' hserial => ?_⟩
  obtain ⟨r, hr, hserial', hkey⟩ := hpasses.keyed r' hr' (hserial ▸ h.1)
  exact hkey ▸ h.2 r hr (hserial'.trans hserial)

theorem IsSound.knows (h : l.IsSound) (hr : r ∈ l.all) : l.Knows r.serial r.key :=
  ⟨h.old r hr, fun r' hr' hserial => by rw [h.serials r' hr' r hr hserial]⟩

/-- A claim leaves the records that others work on as they are, and names a record of its commit. -/
theorem IsSound.claim (h : l.IsSound) (request : CheckRequest) :
    (l.claim request).2.IsSound ∧ Passes none l (l.claim request).2
      ∧ ∀ n, (l.claim request).1 = some n →
        ∃ r ∈ (l.claim request).2.all, r.serial = n ∧ r.key = request.key := by
  unfold Ledger.claim
  split
  · next hnone =>
    refine ⟨(h.add hnone).evict, passes_add.trans passes_evict, fun n hn => ?_⟩
    -- the new record is at its start, so it is not given up at once
    exact ⟨{ serial := l.nextSerial, key := request.key },
      mem_all_of_mem_records (mem_records_evict (l := l.add request.key)
        (List.mem_append_right _ List.mem_cons_self) rfl), Option.some.inj hn, rfl⟩
  · next r hget =>
    have hr : r ∈ l.records := List.mem_of_find?_eq_some hget
    refine ⟨h.touch hr, h.passes_touch hr, fun n hn => ?_⟩
    refine ⟨r, (h.mem_all_touch hr).mpr (mem_all_of_mem_records hr), ?_,
      beq_iff_eq.mp (List.find?_some hget :)⟩
    dsimp only at hn
    split at hn
    · cases hn
    · exact Option.some.inj hn

end Ledger

end TypstLint.Delivery
