import Mathlib.Data.List.Nodup

set_option autoImplicit false

/-! # Lists without repetition

What `eraseDups` leaves has no repetition, a list is cut at the first occurrence of an element, and an
element that no other one is like is found. -/

namespace TypstLint

theorem find?_of_unique {α : Type} {p : α → Bool} {x : α} {xs : List α} (hx : x ∈ xs) (hp : p x = true)
    (hunique : ∀ y ∈ xs, p y = true → y = x) : xs.find? p = some x := by
  obtain ⟨y, hy⟩ := Option.isSome_iff_exists.mp (List.find?_isSome.mpr ⟨x, hx, hp⟩)
  rw [hy, hunique y (List.mem_of_find?_eq_some hy) (List.find?_some hy)]

variable {α : Type} [BEq α] [LawfulBEq α]

theorem nodup_eraseDups (l : List α) : l.eraseDups.Nodup := by
  induction hn : l.length using Nat.strongRecOn generalizing l with
  | ind n ih =>
    cases l with
    | nil => simp
    | cons a rest =>
      rw [List.eraseDups_cons, List.nodup_cons]
      refine ⟨?_, ih _ ?_ _ rfl⟩
      · simp [List.mem_eraseDups]
      · have := List.length_filter_le (fun b => !b == a) rest
        simp only [List.length_cons] at hn
        omega

/-- Renaming the elements of a list keeps which ones repeat. -/
theorem eraseDups_map {β : Type} [BEq β] [LawfulBEq β] {f : α → β} (hf : Function.Injective f) (l : List α) :
    (l.map f).eraseDups = l.eraseDups.map f := by
  induction hn : l.length using Nat.strongRecOn generalizing l with
  | ind n ih =>
    cases l with
    | nil => rfl
    | cons a rest =>
      have hfilter : (rest.map f).filter (fun b => !b == f a) = (rest.filter fun b => !b == a).map f := by
        rw [List.filter_map]
        refine congrArg _ (List.filter_congr fun b _ => ?_)
        rw [Function.comp_apply, beq_eq_beq.mpr hf.eq_iff]
      have hlength := List.length_filter_le (fun b => !b == a) rest
      rw [List.length_cons] at hn
      rw [List.map_cons, List.eraseDups_cons, List.eraseDups_cons, hfilter, List.map_cons,
        ih _ (by omega) _ rfl]

theorem takeWhile_ne_append {x : α} {before : List α} (after : List α) (h : x ∉ before) :
    (before ++ x :: after).takeWhile (· != x) = before := by
  rw [List.takeWhile_append_of_pos]
  · simp
  · intro a ha
    have : a ≠ x := fun e => h (e ▸ ha)
    simpa using this

theorem dropWhile_ne_append {x : α} {before : List α} (after : List α) (h : x ∉ before) :
    (before ++ x :: after).dropWhile (· != x) = x :: after := by
  rw [List.dropWhile_append_of_pos]
  · simp
  · intro a ha
    have : a ≠ x := fun e => h (e ▸ ha)
    simpa using this

end TypstLint
