import Mathlib.Data.List.Nodup
import TypstLint.Assoc

set_option autoImplicit false

/-! # Association lists

What is found in an association list after a change. -/

namespace TypstLint.Assoc

variable {α β : Type} [BEq α] [LawfulBEq α] {entries : List (α × β)} {name other : α} {value : β}

theorem lookup_isSome_iff : (entries.lookup name).isSome ↔ entries.any (·.1 == name) := by
  induction entries with
  | nil => simp
  | cons e rest ih =>
    obtain ⟨key, old⟩ := e
    rw [List.lookup_cons, List.any_cons, Bool.or_eq_true, ← ih, beq_iff_eq]
    split
    · next hkey => simp [beq_iff_eq.mp hkey]
    · next hkey => simp [Ne.symm (ne_of_beq_false hkey)]

theorem mem_of_lookup (h : entries.lookup name = some value) : (name, value) ∈ entries := by
  obtain ⟨before, after, rfl, -⟩ := List.lookup_eq_some_iff.mp h
  exact List.mem_append_right _ List.mem_cons_self

/-- If every name occurs once, what is found are the entries. -/
theorem lookup_eq_some_iff_mem (h : (entries.map Prod.fst).Nodup) :
    entries.lookup name = some value ↔ (name, value) ∈ entries := by
  refine ⟨mem_of_lookup, fun hmem => ?_⟩
  have hany : entries.any (·.1 == name) := List.any_eq_true.mpr ⟨_, hmem, beq_self_eq_true name⟩
  obtain ⟨found, hfound⟩ := Option.isSome_iff_exists.mp (lookup_isSome_iff.mpr hany)
  obtain ⟨-, rfl⟩ := Prod.mk.inj (List.inj_on_of_nodup_map h (mem_of_lookup hfound) hmem rfl)
  exact hfound

/-- Entries keep their names when the value of one of them changes. -/
theorem lookup_map_change :
    (entries.map fun e => if e.1 == name then (name, value) else e).lookup other =
      if other == name then (entries.lookup name).map fun _ => value else entries.lookup other := by
  induction entries with
  | nil => simp
  | cons e rest ih =>
    obtain ⟨key, old⟩ := e
    rw [List.map_cons]
    by_cases hkey : key = name
    · subst hkey
      by_cases hother : other = key
      · subst hother
        simp
      · simp [List.lookup_cons, beq_false_of_ne hother, ih]
    · by_cases hother : other = key
      · subst hother
        simp [beq_false_of_ne hkey]
      · simp [beq_false_of_ne hkey, List.lookup_cons, beq_false_of_ne hother, ih,
          beq_false_of_ne (Ne.symm hkey)]

theorem lookup_set :
    (set entries name value).lookup other =
      if other == name then some value else entries.lookup other := by
  unfold set
  split
  · next hany =>
    rw [lookup_map_change]
    obtain ⟨old, hold⟩ := Option.isSome_iff_exists.mp (lookup_isSome_iff.mpr hany)
    rw [hold, Option.map_some]
  · next hany =>
    have hnone : entries.lookup name = none :=
      Option.not_isSome_iff_eq_none.mp fun hsome => hany (lookup_isSome_iff.mp hsome)
    rw [List.lookup_append]
    by_cases hother : other = name
    · subst hother
      simp [hnone]
    · simp [List.lookup_cons, beq_false_of_ne hother]

theorem lookup_erase :
    (erase entries name).lookup other = if other == name then none else entries.lookup other := by
  induction entries with
  | nil => simp [erase]
  | cons e rest ih =>
    obtain ⟨key, old⟩ := e
    rw [erase] at ih ⊢
    by_cases hkey : key = name
    · subst hkey
      rw [List.filter_cons_of_neg (by simp), ih]
      by_cases hother : other = key
      · simp [hother]
      · simp [List.lookup_cons, beq_false_of_ne hother]
    · rw [List.filter_cons_of_pos (by simp [hkey]), List.lookup_cons, List.lookup_cons, ih]
      by_cases hother : other = key
      · subst hother
        simp [hkey]
      · simp [beq_false_of_ne hother]

/-- The names after a change are those from before and the one that was given a value. -/
theorem mem_names_set : other ∈ (set entries name value).map Prod.fst ↔
    other = name ∨ other ∈ entries.map Prod.fst := by
  have hlookup (entries : List (α × β)) : other ∈ entries.map Prod.fst ↔ (entries.lookup other).isSome := by
    rw [lookup_isSome_iff, List.any_eq_true, List.mem_map]
    simp only [beq_iff_eq]
  rw [hlookup, hlookup, lookup_set]
  by_cases hother : other = name
  · simp [hother]
  · simp [hother]

theorem nodup_set (h : (entries.map Prod.fst).Nodup) :
    ((set entries name value).map Prod.fst).Nodup := by
  unfold set
  split
  · have hnames : (entries.map fun e => if e.1 == name then (name, value) else e).map Prod.fst
        = entries.map Prod.fst := by
      rw [List.map_map]
      refine List.map_congr_left fun e _ => ?_
      rw [Function.comp_apply]
      split
      · next heq => exact (beq_iff_eq.mp heq).symm
      · rfl
    rwa [hnames]
  · next hany =>
    rw [List.map_append, List.nodup_append]
    refine ⟨h, List.nodup_singleton name, ?_⟩
    rintro _ hkey _ hname rfl
    obtain ⟨e, he, heq⟩ := List.mem_map.mp hkey
    exact hany (List.any_eq_true.mpr ⟨e, he, beq_iff_eq.mpr (heq.trans (List.mem_singleton.mp hname))⟩)

/-- A name that was there is there after a change. -/
theorem lookup_set_isSome (h : (entries.lookup other).isSome) :
    ((set entries name value).lookup other).isSome := by
  rw [lookup_set]
  split
  · rfl
  · exact h

omit [LawfulBEq α] in
/-- Changing the values keeps what is found. -/
theorem lookup_map_value {γ : Type} (f : β → γ) :
    (entries.map fun e => (e.1, f e.2)).lookup name = (entries.lookup name).map f := by
  induction entries with
  | nil => rfl
  | cons e rest ih =>
    rw [List.map_cons, List.lookup_cons, List.lookup_cons, ih]
    split <;> rfl

end TypstLint.Assoc
