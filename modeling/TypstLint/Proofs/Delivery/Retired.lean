import TypstLint.Proofs.Delivery.Courses

set_option autoImplicit false

/-! # Records that are given up too early

A record is idle, and may be given up, as soon as its check is over and its lock is free. A delivery that
waits for the lock may not have had its turn then. The next delivery of the commit gets a new record, and
the two of them can be inside an attempt at the same time (`not_isExclusive_late`). This is the only way
in which that can happen: deliveries inside attempts always hold the locks of different records
(`inside_apart`). -/

namespace TypstLint.Delivery

/-! ## Locks -/

section

variable {ι : Type} [DecidableEq ι] {s : Service} {requests : ι → CheckRequest} {crowd : Crowd ι}
  {account : Account ι} {d : Desk} {log : List Exchange} {i j : ι}

/-- A record that was given up is one that the ledger does not have any more. -/
theorem Ledger.mem_retired_of_ne {l : Ledger} (h : l.IsSound) {r r' : Record} (hr : r ∈ l.all)
    (hr' : r' ∈ l.all) (hkey : r.key = r'.key) (hne : r.serial ≠ r'.serial) :
    r ∈ l.retired ∨ r' ∈ l.retired := by
  rcases List.mem_append.mp hr with hrecord | hretired
  · rcases List.mem_append.mp hr' with hrecord' | hretired'
    · rw [h.keys r hrecord r' hrecord' hkey] at hne
      exact absurd rfl hne
    · exact .inr hretired'
  · exact .inl hretired

/-- Two deliveries that are inside attempts hold the locks of different records, those that they have
claimed. If they are about the same commit, at least one of these records was given up while a delivery
waited for it. -/
theorem inside_apart (hledger : d.ledger.IsSettled)
    (hrecounts : (Crowd.start d).Recounts s requests log account crowd) (hij : i ≠ j)
    (hi : (crowd.stages i).InAttempt) (hj : (crowd.stages j).InAttempt) :
    ∃ r ∈ crowd.desk.ledger.all, ∃ r' ∈ crowd.desk.ledger.all,
      account.claimed i = some r.serial ∧ account.claimed j = some r'.serial
        ∧ r.key = (requests i).key ∧ r'.key = (requests j).key
        ∧ r.lock.held = true ∧ r'.lock.held = true ∧ r.serial ≠ r'.serial
        ∧ ((requests i).key = (requests j).key →
          r ∈ crowd.desk.ledger.retired ∨ r' ∈ crowd.desk.ledger.retired) := by
  have hstart : (Crowd.start d).Accords s log requests d.ledger d.notices {} :=
    Crowd.accords_start hledger
  have h := hstart.recounts hrecounts (List.Subset.refl log)
  obtain ⟨n, _, _, _, hn, -, -, hisAt⟩ := (h.stages i).isAt hi
  obtain ⟨m, _, _, _, hm, -, -, hisAt'⟩ := (h.stages j).isAt hj
  obtain ⟨r, hr, hserial, hkey, hheld, -⟩ := hisAt.there
  obtain ⟨r', hr', hserial', hkey', hheld', -⟩ := hisAt'.there
  obtain rfl : r.serial = n := hserial
  obtain rfl : r'.serial = m := hserial'
  have hne : r.serial ≠ r'.serial := fun heq => hij (h.apart i j r.serial hi hj hn (heq ▸ hm))
  exact ⟨r, hr, r', hr', hn, hm, hkey, hkey', hheld, hheld', hne, fun hsame =>
    Ledger.mem_retired_of_ne h.sound hr hr' (hkey.trans (hsame.trans hkey'.symm)) hne⟩

/-- Whether no two deliveries of a commit are inside an attempt at the same time. -/
def Crowd.IsExclusive (requests : ι → CheckRequest) (crowd : Crowd ι) : Prop :=
  ∀ i j, (requests i).key = (requests j).key → (crowd.stages i).InAttempt →
    (crowd.stages j).InAttempt → i = j

end

/-! ## A late turn

The ledger has room for one record, and the check of an earlier commit is on it: an empty ledger would be
replaced when the service starts (`Desk.start`). Two deliveries of a commit arrive, of which the second one waits
for the first one, and when that has failed, but before the second one has its turn, a delivery of another
commit arrives: the record is given up. A third delivery of the commit then gets a record of its own. -/

/-- The requests, of which the third one is about another commit. -/
def lateRequest (i : Fin 4) : CheckRequest :=
  { installation := 7
    repository := ⟨"typst/packages"⟩
    headSha := if i = 2 then "def" else "abc"
    pullNumber := some 3 }

/-- A ledger for one record, which is that of a check that is done. -/
def smallLedger : Ledger where
  limit := 1
  records := [{ key := ⟨"typst/packages", "old"⟩, state := .done, attempts := 1 }]
  nextSerial := 1

/-- The desk of a service that starts with this ledger, with a token at hand. -/
def smallDesk : Desk := { Desk.start smallLedger 0 with tokens := pairDesk.tokens }

theorem isSettled_smallLedger : smallDesk.ledger.IsSettled where
  sound :=
    { serials := by decide
      old := by decide
      keys := by decide
      atEnd := by decide }
  free := by decide

theorem recounts_late : ∃ (account : Account (Fin 4)) (crowd : Crowd (Fin 4)),
    (Crowd.start smallDesk).Recounts pairService lateRequest downLog account crowd
      ∧ crowd.stages 0 = .ended (.ok .failed) ∧ (crowd.stages 1).InAttempt
      ∧ (crowd.stages 3).InAttempt
      ∧ account.claimed 1 = some 1 ∧ account.claimed 3 = some 3 := by
  have hstart : (Crowd.start smallDesk).Recounts pairService lateRequest [] {} (Crowd.start smallDesk) :=
    .refl _
  have hqueued := (hstart.begin (i := 0) rfl).begin (i := 1) rfl
  have hfailed := hqueued.goOn (i := 0) (w := .call (.filesOf "ghs" ⟨"typst/packages"⟩ 3)) rfl
    (.error (.client (.network "down"))) rfl
  have hother := hfailed.begin (i := 2) rfl
  have hlate := hother.begin (i := 3) rfl
  have hturn := hlate.goOn (i := 1) (w := .turn (.record 1) 0) rfl () rfl
  exact ⟨_, _, hturn, rfl, trivial, trivial, rfl, rfl⟩

theorem inside_apart_late : ∃ (account : Account (Fin 4)) (crowd : Crowd (Fin 4)),
    smallDesk.ledger.IsSettled
      ∧ (Crowd.start smallDesk).Recounts pairService lateRequest downLog account crowd
      ∧ (1 : Fin 4) ≠ 3 ∧ (crowd.stages 1).InAttempt ∧ (crowd.stages 3).InAttempt
      ∧ ∃ r ∈ crowd.desk.ledger.all, ∃ r' ∈ crowd.desk.ledger.all,
        account.claimed 1 = some r.serial ∧ account.claimed 3 = some r'.serial
          ∧ r.serial ≠ r'.serial
          ∧ (r ∈ crowd.desk.ledger.retired ∨ r' ∈ crowd.desk.ledger.retired) := by
  obtain ⟨account, crowd, hrecounts, -, hone, hthree, -⟩ := recounts_late
  obtain ⟨r, hr, r', hr', hn, hm, -, -, -, -, hne, hretired⟩ :=
    inside_apart isSettled_smallLedger hrecounts (by decide) hone hthree
  exact ⟨account, crowd, isSettled_smallLedger, hrecounts, by decide, hone, hthree, r, hr, r', hr', hn, hm,
    hne, hretired rfl⟩

/-- The delivery that waited and the one that came later are inside an attempt at the same time. -/
theorem not_isExclusive_late : ∃ crowd : Crowd (Fin 4),
    (Crowd.start smallDesk).Reaches pairService lateRequest downLog crowd
      ∧ ¬ crowd.IsExclusive lateRequest := by
  obtain ⟨_, crowd, hrecounts, -, hone, hthree, -⟩ := recounts_late
  refine ⟨crowd, Crowd.reaches_iff_exists.mpr ⟨_, hrecounts⟩, fun hexclusive => ?_⟩
  exact absurd (hexclusive 1 3 rfl hone hthree) (by decide)

end TypstLint.Delivery
