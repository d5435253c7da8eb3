import TypstLint.Proofs.Delivery.Exclusion
import TypstLint.Proofs.Delivery.Forward

set_option autoImplicit false

/-! # Accounts of crowds

While deliveries take turns, an `Account` is kept of them: which record each of them has claimed, and
which states it has put on record. The account tells the course of every attempt, and the number of
attempts at each check. It is no part of what runs: every way in which deliveries can go has an account
(`Crowd.reaches_iff_exists`). -/

namespace TypstLint.Delivery

open GitHub (Failure)

/-! ## Accounts -/

/-- What is kept of deliveries. -/
structure Account (ι : Type) where
  /-- The number of the record that a delivery has claimed. -/
  claimed : ι → Option Nat := fun _ => none
  /-- The states that were put on record, and by whom, the first one first. -/
  told : List (ι × State) := []

/-- The states that were put on record from one moment to a later one. -/
def Desk.toldUntil (before after : Desk) : List State :=
  taken (after.notices.take (after.notices.length - before.notices.length))

namespace Account

variable {ι : Type} [DecidableEq ι]

/-- Enters the claim of a delivery. -/
def claim (account : Account ι) (i : ι) (n : Option Nat) : Account ι :=
  { account with claimed := Function.update account.claimed i n }

/-- Enters a turn of a delivery. -/
def turn (account : Account ι) (i : ι) (before after : Desk) : Account ι :=
  { account with told := account.told ++ (before.toldUntil after).map (i, ·) }

/-- The states that a delivery has put on record. -/
def toldBy (account : Account ι) (i : ι) : List State :=
  account.told.filterMap fun entry => if entry.1 = i then some entry.2 else none

/-- The states that were put on record by those who have claimed the record with a number. -/
def toldOn (account : Account ι) (n : Nat) : List State :=
  account.told.filterMap fun entry => if account.claimed entry.1 = some n then some entry.2 else none

end Account

namespace Crowd

variable {ι : Type} [DecidableEq ι]

/-- What may have happened after a while, the calls and answers up to then, and the account of it. -/
inductive Recounts (s : Service) (requests : ι → CheckRequest) :
    Crowd ι → List Exchange → Account ι → Crowd ι → Prop where
  | refl (crowd : Crowd ι) : Recounts s requests crowd [] {} crowd
  /-- A delivery gets the desk for the first time, and claims a record. -/
  | begin {first crowd : Crowd ι} {log : List Exchange} {account : Account ι} {i : ι}
      (hbefore : Recounts s requests first log account crowd) (hstage : crowd.stages i = .ahead) :
      Recounts s requests first log
        ((account.claim i (crowd.desk.ledger.claim (requests i)).1).turn i crowd.desk
          ((handle s (requests i)).run crowd.desk).desk)
        (crowd.move i ((handle s (requests i)).run crowd.desk))
  /-- The waiting of a delivery is over. -/
  | goOn {first crowd : Crowd ι} {log : List Exchange} {account : Account ι} {i : ι} {w : Wait}
      {next : w.Answer → Desk → Step (Except Failure State)}
      (hbefore : Recounts s requests first log account crowd)
      (hstage : crowd.stages i = .waiting w next) (answer : w.Answer)
      (hend : w.mayEnd crowd.desk = true) :
      Recounts s requests first (log ++ w.exchanges answer)
        (account.turn i crowd.desk (next answer crowd.desk).desk)
        (crowd.move i (next answer crowd.desk))
  /-- Time passes. -/
  | pass {first crowd : Crowd ι} {log : List Exchange} {account : Account ι}
      (hbefore : Recounts s requests first log account crowd) (now : Int) :
      Recounts s requests first log account { crowd with desk := { crowd.desk with now } }

variable {s : Service} {requests : ι → CheckRequest} {first crowd : Crowd ι} {log : List Exchange}
  {account : Account ι}

/-- What crowds can reach is what there are accounts of. -/
theorem reaches_iff_exists : first.Reaches s requests log crowd ↔
    ∃ account, first.Recounts s requests log account crowd := by
  constructor
  · intro h
    induction h with
    | refl => exact ⟨_, .refl _⟩
    | move _ hmoves ih =>
      obtain ⟨account, h⟩ := ih
      cases hmoves with
      | begin hstage =>
        rw [List.append_nil]
        exact ⟨_, h.begin hstage⟩
      | goOn hstage answer hend => exact ⟨_, h.goOn hstage answer hend⟩
      | pass now =>
        rw [List.append_nil]
        exact ⟨_, h.pass now⟩
  · rintro ⟨account, h⟩
    induction h with
    | refl => exact .refl _
    | begin _ hstage ih =>
      have hmoved := ih.move (.begin hstage)
      rwa [List.append_nil] at hmoved
    | goOn _ hstage answer hend ih => exact ih.move (.goOn hstage answer hend)
    | pass _ now ih =>
      have hmoved := ih.move (.pass now)
      rwa [List.append_nil] at hmoved

end Crowd

/-! ## Small facts about accounts -/

theorem Desk.toldUntil_eq {before after : Desk} {new : List Notice}
    (h : after.notices = new ++ before.notices) : before.toldUntil after = taken new := by
  rw [Desk.toldUntil, h, List.length_append, Nat.add_sub_cancel, List.take_left]

namespace Account

variable {ι : Type} [DecidableEq ι] {account : Account ι} {i j : ι} {n : Nat} {before after : Desk}

theorem claimed_claim_self {claimed : Option Nat} : (account.claim i claimed).claimed i = claimed :=
  Function.update_self ..

theorem claimed_claim_of_ne {claimed : Option Nat} (h : j ≠ i) :
    (account.claim i claimed).claimed j = account.claimed j :=
  Function.update_of_ne h ..

theorem toldBy_turn_self :
    (account.turn i before after).toldBy i = account.toldBy i ++ before.toldUntil after := by
  rw [toldBy, turn, List.filterMap_append, List.filterMap_map]
  simp only [Function.comp_def, if_true, List.filterMap_some]
  rfl

theorem toldBy_turn_of_ne (h : j ≠ i) : (account.turn i before after).toldBy j = account.toldBy j := by
  rw [toldBy, turn, List.filterMap_append, List.filterMap_map]
  simp only [Function.comp_def, if_neg h.symm, List.filterMap_none, List.append_nil]
  rfl

omit [DecidableEq ι] in
theorem toldOn_turn (h : account.claimed i = some n) :
    (account.turn i before after).toldOn n = account.toldOn n ++ before.toldUntil after := by
  rw [toldOn, turn, List.filterMap_append, List.filterMap_map]
  simp only [Function.comp_def, if_pos h, List.filterMap_some]
  rfl

omit [DecidableEq ι] in
theorem toldOn_turn_of_ne (h : account.claimed i ≠ some n) :
    (account.turn i before after).toldOn n = account.toldOn n := by
  rw [toldOn, turn, List.filterMap_append, List.filterMap_map]
  simp only [Function.comp_def, if_neg h, List.filterMap_none, List.append_nil]
  rfl

omit [DecidableEq ι] in
theorem toldOn_eq_nil (h : ∀ i, account.claimed i ≠ some n) : account.toldOn n = [] :=
  List.filterMap_eq_nil_iff.mpr fun entry _ => if_neg (h entry.1)

/-- The claim of a delivery that has put nothing on record makes no difference. -/
theorem toldOn_claim {claimed : Option Nat} (h : account.toldBy i = []) :
    (account.claim i claimed).toldOn n = account.toldOn n := by
  refine List.filterMap_congr fun entry hentry => ?_
  have hne : entry.1 ≠ i := fun heq => by
    rw [toldBy, List.filterMap_eq_nil_iff] at h
    have hnone := h entry hentry
    rw [if_pos heq] at hnone
    cases hnone
  rw [claimed_claim_of_ne hne]

end Account

end TypstLint.Delivery
