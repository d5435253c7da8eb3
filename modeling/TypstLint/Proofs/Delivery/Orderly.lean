import TypstLint.Delivery.Task
import TypstLint.Proofs.Distinct

set_option autoImplicit false

/-! # Orderly ledgers

As long as a ledger has room for the records of all commits that deliveries are about, no record is ever
given up. Each commit then has one record, with a number of its own, from its first delivery on
(`Ledger.Orderly`). What becomes of the records is told by `Ledger.Follows`, record by record. -/

namespace TypstLint.Delivery

variable {keys : List CheckKey}

/-! ## What becomes of a record -/

/-- What becomes of a record while a delivery has the desk that has the lock of the record `own`, if of
any. A record keeps its check runs. If it is not that delivery's own, no check run is added to it, and its
lock stays held if it is. -/
structure Record.Follows (own : Option Nat) (r r' : Record) : Prop where
  serial_eq : r'.serial = r.serial
  key_eq : r'.key = r.key
  keepsRuns : ∀ name, (r.runs.lookup name).isSome → (r'.runs.lookup name).isSome
  runs_eq : own ≠ some r.serial → r'.runs = r.runs
  staysHeld : own ≠ some r.serial → r.lock.held = true → r'.lock.held = true

namespace Record.Follows

variable {own : Option Nat} {r r₁ r₂ r₃ : Record}

theorem refl (own : Option Nat) (r : Record) : Record.Follows own r r :=
  ⟨rfl, rfl, fun _ h => h, fun _ => rfl, fun _ h => h⟩

theorem trans (h : Record.Follows own r₁ r₂) (h' : Record.Follows own r₂ r₃) :
    Record.Follows own r₁ r₃ where
  serial_eq := h'.serial_eq.trans h.serial_eq
  key_eq := h'.key_eq.trans h.key_eq
  keepsRuns name hname := h'.keepsRuns name (h.keepsRuns name hname)
  runs_eq hne := (h'.runs_eq (h.serial_eq ▸ hne)).trans (h.runs_eq hne)
  staysHeld hne hheld := h'.staysHeld (h.serial_eq ▸ hne) (h.staysHeld hne hheld)

end Record.Follows

namespace Ledger

variable {l l₁ l₂ l₃ : Ledger} {own : Option Nat} {serial : Nat} {r r' : Record} {f : Record → Record}

/-- Every record is still there. -/
def Follows (own : Option Nat) (l l' : Ledger) : Prop :=
  ∀ r ∈ l.records, ∃ r' ∈ l'.records, Record.Follows own r r'

theorem Follows.refl (own : Option Nat) (l : Ledger) : Follows own l l :=
  fun r hr => ⟨r, hr, .refl own r⟩

theorem Follows.trans (h : Follows own l₁ l₂) (h' : Follows own l₂ l₃) : Follows own l₁ l₃ := by
  intro r hr
  obtain ⟨r₂, hr₂, hfollows⟩ := h r hr
  obtain ⟨r₃, hr₃, hfollows'⟩ := h' r₂ hr₂
  exact ⟨r₃, hr₃, hfollows.trans hfollows'⟩

/-! ## Order -/

/-- A ledger with room for the records of the commits `keys`, of which each has at most one. -/
structure Orderly (keys : List CheckKey) (l : Ledger) : Prop where
  retired : l.retired = []
  serials : (l.records.map (·.serial)).Nodup
  old : ∀ r ∈ l.records, r.serial < l.nextSerial
  distinct : (l.records.map (·.key)).Nodup
  known : ∀ r ∈ l.records, r.key ∈ keys
  room : (keys.length : Int) ≤ l.limit

namespace Orderly

/-- A ledger without records, with room for those of the commits. -/
theorem empty {limit : Int} {nextSerial : Nat} (hroom : (keys.length : Int) ≤ limit) :
    Orderly keys { limit, nextSerial } :=
  ⟨rfl, List.nodup_nil, List.forall_mem_nil _, List.nodup_nil, List.forall_mem_nil _, hroom⟩

theorem find?_iff (h : l.Orderly keys) : l.find? serial = some r ↔ r ∈ l.records ∧ r.serial = serial := by
  rw [find?, h.retired, List.append_nil]
  constructor
  · intro hfind
    exact ⟨List.mem_of_find?_eq_some hfind, beq_iff_eq.mp (List.find?_some hfind :)⟩
  · rintro ⟨hmem, rfl⟩
    refine find?_of_unique hmem (beq_self_eq_true _) fun r' hr' hserial => ?_
    exact List.inj_on_of_nodup_map h.serials hr' hmem (beq_iff_eq.mp hserial)

theorem eq_of_serial (h : l.Orderly keys) (hr : r ∈ l.records) (hr' : r' ∈ l.records)
    (hserial : r.serial = r'.serial) : r = r' :=
  List.inj_on_of_nodup_map h.serials hr hr' hserial

theorem eq_of_key (h : l.Orderly keys) (hr : r ∈ l.records) (hr' : r' ∈ l.records)
    (hkey : r.key = r'.key) : r = r' :=
  List.inj_on_of_nodup_map h.distinct hr hr' hkey

/-- Changes of records that leave their numbers and commits alone. -/
theorem map (h : l.Orderly keys) {g : Record → Record}
    (hg : ∀ r ∈ l.records, (g r).serial = r.serial ∧ (g r).key = r.key) :
    Orderly keys { l with records := l.records.map g, retired := l.retired.map g } := by
  have hserials : (l.records.map g).map (·.serial) = l.records.map (·.serial) := by
    rw [List.map_map]
    exact List.map_congr_left fun r hr => (hg r hr).1
  have hkeys : (l.records.map g).map (·.key) = l.records.map (·.key) := by
    rw [List.map_map]
    exact List.map_congr_left fun r hr => (hg r hr).2
  refine ⟨by rw [h.retired, List.map_nil], hserials ▸ h.serials, fun r' hr' => ?_, hkeys ▸ h.distinct,
    fun r' hr' => ?_, h.room⟩
  · obtain ⟨r, hr, rfl⟩ := List.mem_map.mp hr'
    rw [(hg r hr).1]
    exact h.old r hr
  · obtain ⟨r, hr, rfl⟩ := List.mem_map.mp hr'
    rw [(hg r hr).2]
    exact h.known r hr

theorem forgetRetired (h : l.Orderly keys) : l.forgetRetired = l := by
  rw [Ledger.forgetRetired, h.retired, List.filter_nil, ← h.retired]

/-! ## Changes of one record -/

theorem update (h : l.Orderly keys)
    (hf : ∀ r ∈ l.records, r.serial = serial → (f r).serial = r.serial ∧ (f r).key = r.key) :
    (l.update serial f).Orderly keys := by
  refine h.map fun r hr => ?_
  split
  · next hserial => exact hf r hr (beq_iff_eq.mp hserial)
  · exact ⟨rfl, rfl⟩

end Orderly

theorem mem_update (hr : r ∈ l.records) (hserial : r.serial = serial) :
    f r ∈ (l.update serial f).records :=
  List.mem_map.mpr ⟨r, hr, if_pos (beq_iff_eq.mpr hserial)⟩

theorem follows_update (hf : ∀ r ∈ l.records, r.serial = serial → Record.Follows own r (f r)) :
    Follows own l (l.update serial f) := by
  intro r hr
  refine ⟨_, List.mem_map_of_mem hr, ?_⟩
  split
  · next hserial => exact hf r hr (beq_iff_eq.mp hserial)
  · exact .refl own r

/-! ## Claims -/

theorem splitFirst_zero {α : Type} (p : α → Bool) (xs : List α) : splitFirst p 0 xs = ([], xs) := by
  cases xs <;> rfl

/-- There is room for as many records as there are commits. -/
theorem evict_of_distinct (hdistinct : (l.records.map (·.key)).Nodup)
    (hknown : ∀ r ∈ l.records, r.key ∈ keys) (hroom : (keys.length : Int) ≤ l.limit) :
    l.evict = l := by
  have hlength : l.records.length ≤ keys.length := by
    rw [← List.length_map (f := fun r : Record => r.key)]
    refine hdistinct.length_le_of_subset fun key hkey => ?_
    obtain ⟨r, hr, rfl⟩ := List.mem_map.mp hkey
    exact hknown r hr
  have hexcess : ((l.records.length : Int) - l.limit).toNat = 0 := by omega
  rw [evict, hexcess, splitFirst_zero]
  dsimp only
  rw [List.filter_nil, List.append_nil]

/-- A commit without a record gets one, and still no two commits share one. -/
theorem distinct_enter (h : l.Orderly keys) {key : CheckKey} (hkey : key ∈ keys)
    (hnone : l.get? key = none) :
    ((l.records ++ [({ serial := l.nextSerial, key } : Record)]).map (·.key)).Nodup
      ∧ ∀ r ∈ l.records ++ [({ serial := l.nextSerial, key } : Record)], r.key ∈ keys := by
  constructor
  · rw [List.map_append]
    refine List.nodup_append.mpr ⟨h.distinct, List.nodup_singleton _, ?_⟩
    rintro _ hold _ hmem rfl
    obtain ⟨r, hr, hrkey⟩ := List.mem_map.mp hold
    rw [List.mem_singleton.mp hmem] at hrkey
    exact List.find?_eq_none.mp hnone r hr (beq_iff_eq.mpr hrkey)
  · intro r hr
    rcases List.mem_append.mp hr with hr | hr
    · exact h.known r hr
    · rw [List.mem_singleton.mp hr]
      exact hkey

theorem enter_eq (h : l.Orderly keys) {key : CheckKey} (hkey : key ∈ keys) (hnone : l.get? key = none) :
    l.enter key = { l with
      records := l.records ++ [{ serial := l.nextSerial, key }], nextSerial := l.nextSerial + 1 } :=
  evict_of_distinct (distinct_enter h hkey hnone).1 (distinct_enter h hkey hnone).2 h.room

theorem Orderly.enter (h : l.Orderly keys) {key : CheckKey} (hkey : key ∈ keys)
    (hnone : l.get? key = none) : (l.enter key).Orderly keys := by
  obtain ⟨hdistinct, hknown⟩ := distinct_enter h hkey hnone
  rw [enter_eq h hkey hnone]
  refine ⟨h.retired, ?_, fun r hr => ?_, hdistinct, hknown, h.room⟩
  · rw [List.map_append]
    refine List.nodup_append.mpr ⟨h.serials, List.nodup_singleton _, ?_⟩
    rintro _ hold _ hmem rfl
    obtain ⟨r, hr, hserial⟩ := List.mem_map.mp hold
    exact absurd (hserial.trans (List.mem_singleton.mp hmem)) (Nat.ne_of_lt (h.old r hr))
  · rcases List.mem_append.mp hr with hr | hr
    · exact Nat.lt_succ_of_lt (h.old r hr)
    · rw [List.mem_singleton.mp hr]
      exact Nat.lt_succ_self _

theorem mem_touch (h : l.Orderly keys) (hr : r ∈ l.records) :
    r' ∈ (l.touch r).records ↔ r' ∈ l.records := by
  rw [touch, List.mem_append, List.mem_filter, List.mem_singleton, bne_iff_ne]
  constructor
  · rintro (⟨hmem, -⟩ | rfl)
    · exact hmem
    · exact hr
  · intro hmem
    by_cases hkey : r'.key = r.key
    · exact .inr (h.eq_of_key hmem hr hkey)
    · exact .inl ⟨hmem, hkey⟩

/-- What tells records apart still does when one of them is moved to the end. -/
theorem nodup_touch {α : Type} {g : Record → α} (h : (l.records.map g).Nodup) (hr : r ∈ l.records) :
    ((l.touch r).records.map g).Nodup := by
  rw [touch, List.map_append]
  refine List.nodup_append.mpr ⟨h.sublist (List.filter_sublist.map g), List.nodup_singleton _, ?_⟩
  rintro _ hmem _ hlast rfl
  obtain ⟨r', hr', heq⟩ := List.mem_map.mp hmem
  obtain ⟨hr', hkey⟩ := List.mem_filter.mp hr'
  rw [List.inj_on_of_nodup_map h hr' hr (heq.trans (List.mem_singleton.mp hlast))] at hkey
  exact bne_iff_ne.mp hkey rfl

theorem Orderly.touch (h : l.Orderly keys) (hr : r ∈ l.records) : (l.touch r).Orderly keys where
  retired := h.retired
  serials := nodup_touch h.serials hr
  old r' hr' := h.old r' ((mem_touch h hr).mp hr')
  distinct := nodup_touch h.distinct hr
  known r' hr' := h.known r' ((mem_touch h hr).mp hr')
  room := h.room

/-- A claim leaves all records as they are, and names the record of its commit. -/
theorem Orderly.claim (h : l.Orderly keys) {request : CheckRequest} (hkey : request.key ∈ keys)
    (own : Option Nat) :
    (l.claim request).2.Orderly keys ∧ Follows own l (l.claim request).2
      ∧ ∀ serial, (l.claim request).1 = some serial →
        ∃ r ∈ (l.claim request).2.records, r.serial = serial ∧ r.key = request.key := by
  unfold Ledger.claim
  split
  · next hnone =>
    refine ⟨h.enter hkey hnone, fun r hr => ⟨r, ?_, .refl own r⟩, fun serial hserial => ?_⟩
    · rw [enter_eq h hkey hnone]
      exact List.mem_append_left _ hr
    · refine ⟨{ serial := l.nextSerial, key := request.key }, ?_, Option.some.inj hserial, rfl⟩
      rw [enter_eq h hkey hnone]
      exact List.mem_append_right _ List.mem_cons_self
  · next r hget =>
    have hr : r ∈ l.records := List.mem_of_find?_eq_some hget
    refine ⟨h.touch hr, fun r' hr' => ⟨r', (mem_touch h hr).mpr hr', .refl own r'⟩,
      fun serial hserial => ?_⟩
    refine ⟨r, (mem_touch h hr).mpr hr, ?_, beq_iff_eq.mp (List.find?_some hget :)⟩
    dsimp only at hserial
    split at hserial
    · cases hserial
    · exact Option.some.inj hserial

end Ledger

end TypstLint.Delivery
