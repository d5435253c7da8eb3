import TypstLint.Proofs.Delivery.Completion

set_option autoImplicit false

/-! # Check runs that are run again

A request that GitHub makes when a check run is to be run again names that check run. It is the one that
its package has in the attempt, whatever was on record before, and it is completed like the others
(`rerun_completed`). The other packages get new check runs then, as the record forgets those that they
had; only a request that asks for no new ones leaves them alone (`handle_runs_again`).

Both are read off `Attempted`, with the check runs that an attempt starts with given by `startingRuns`. -/

namespace TypstLint.Delivery

open GitHub (ChangedFile CheckRun Failure)

variable {s : Service} {request : CheckRequest} {run : CheckRun} {serial : Nat} {r : Record}
  {d d' : Desk} {log : List Exchange} {state : State} {runs : List (String × Int)} {name : String}

/-! ## Deliveries with their record -/

/-- A delivery has the lock of its record from the desk `taken` on, where it finds the record `r`, up to
the desk `given`. -/
structure HasRecord (request : CheckRequest) (serial : Nat) (d taken : Desk) (r : Record)
    (given d' : Desk) : Prop where
  acquired : (Task.acquire (.record serial)).Runs (Undisturbed serial)
    { d with ledger := (d.ledger.claim request).2 } [] () taken
  found : taken.ledger.find? serial = some r
  released : (Task.release (.record serial)).Runs (Undisturbed serial) given [] () d'

/-- What a delivery asks for that claims a record, it asks for while it has the record. -/
theorem locked_of_handle {result : Except Failure State}
    (hclaim : (d.ledger.claim request).1 = some serial)
    (hrun : Attempt.Runs (Undisturbed serial) (handle s request) d log result d') :
    ∃ taken r given, HasRecord request serial d taken r given d' ∧ r.lock.held = true
      ∧ Attempt.Runs (Undisturbed serial) (handleLocked s ⟨request, serial⟩) taken log result given := by
  rw [handle, Attempt.runs_lift_bind] at hrun
  obtain ⟨_, claimed, d₁, _, rfl, hclaimed, hrun⟩ := hrun
  obtain ⟨rfl, rfl, rfl⟩ := Task.runs_claim.mp hclaimed
  rw [hclaim] at hrun
  obtain ⟨log₁, taken, log₂, given, log₃, rfl, hacquire, hlocked, hrelease⟩ :=
    Attempt.runs_locked.mp hrun
  obtain ⟨rfl, state, runs, r, hfind, hheld, -, -⟩ :=
    Task.holds_of_acquire (Ledger.find?_claim hclaim) hacquire
  obtain ⟨rfl, -⟩ := Task.runs_modify.mp hrelease
  rw [List.nil_append, List.nil_append, List.append_nil]
  exact ⟨taken, r, given, ⟨hacquire, hfind, hrelease⟩, hheld, hlocked⟩

/-- A check that is done is made again if new check runs are asked for. -/
theorem Record.not_isSettledFor_of_rerequested (hagain : request.rerequested = true) :
    ¬ r.isSettledFor request = true := by
  rw [Record.isSettledFor, hagain, Bool.not_true, Bool.and_false]
  exact Bool.false_ne_true

/-! ## The check runs at the start -/

theorem lookup_startingRuns_named (hnamed : request.checkRun = some run) :
    (r.startingRuns request).lookup run.name = some run.id := by
  rw [Record.startingRuns, hnamed]
  dsimp only
  rw [Assoc.lookup_set, if_pos (beq_self_eq_true _)]

/-- The others start with the check runs on record, unless new ones are asked for. -/
theorem lookup_startingRuns_of_ne (hne : ∀ run, request.checkRun = some run → name ≠ run.name) :
    (r.startingRuns request).lookup name =
      if request.rerequested then none else r.runs.lookup name := by
  have hknown : (if request.rerequested then [] else r.runs).lookup name =
      if request.rerequested then none else r.runs.lookup name := by
    split <;> rfl
  rw [Record.startingRuns]
  cases hnamed : request.checkRun with
  | none => exact hknown
  | some run =>
    have hother : ¬ (name == run.name) = true := mt beq_iff_eq.mp (hne run hnamed)
    dsimp only
    rw [Assoc.lookup_set, if_neg hother, hknown]

/-- If new check runs are asked for, only the one that is named is there already. -/
theorem missing_of_rerequested (hagain : request.rerequested = true) (specs : List Spec) :
    missing (r.startingRuns request) specs =
      (specs.map Spec.render).filter fun name => request.checkRun.all (·.name != name) := by
  refine List.filter_congr fun name _ => ?_
  cases hnamed : request.checkRun with
  | none =>
    rw [lookup_startingRuns_of_ne (fun run hrun => by cases hnamed.symm.trans hrun), if_pos hagain]
    rfl
  | some run =>
    rw [Option.all_some]
    by_cases hname : name = run.name
    · rw [hname, lookup_startingRuns_named hnamed, bne_self_eq_false]
      rfl
    · have hne (run' : CheckRun) (hrun' : request.checkRun = some run') : name ≠ run'.name := by
        rwa [← Option.some.inj (hnamed.symm.trans hrun')]
      rw [lookup_startingRuns_of_ne hne, if_pos hagain, bne_iff_ne.mpr (Ne.symm hname)]
      rfl

/-! ## The check run that is named -/

/-- The last update that any check run gets from a report completes it. -/
theorem Completes.concludes {n m : Int} {outputs : List GitHub.Output} {conclusion : String}
    {us : List RunUpdate} {u : RunUpdate} (h : Completes n outputs conclusion us)
    (hu : (us.filter (·.run == m)).getLast? = some u) : u.conclusion = some conclusion := by
  obtain ⟨progress, last, -, rfl⟩ := id h
  by_cases hsame : n = m
  · subst hsame
    rw [List.filter_eq_self.mpr fun u hu => beq_iff_eq.mpr (h.run_eq u hu),
      List.getLast?_concat] at hu
    rw [← Option.some.inj hu]
  · have hmem := List.mem_filter.mp (List.mem_of_getLast? hu)
    exact absurd ((h.run_eq u hmem.1).symm.trans (beq_iff_eq.mp hmem.2)) hsame

theorem concludes_of_sent {changed : List ChangedFile} {outside : Bool} {specs : List Spec}
    {sent : List (List RunUpdate)} {n : Int} {u : RunUpdate}
    (hsent : List.Forall₂ (IsSent s request changed outside log runs) specs sent)
    (hu : (sent.flatten.filter (·.run == n)).getLast? = some u) :
    ∃ conclusion, u.conclusion = some conclusion := by
  induction hsent with
  | nil => cases hu
  | cons hfirst _ ih =>
    obtain ⟨_, -, hreport⟩ := hfirst
    obtain ⟨_, conclusion, hcompletes⟩ := hreport.completes
    rw [List.flatten_cons, List.filter_append, List.getLast?_append] at hu
    rcases Option.or_eq_some_iff.mp hu with hu | ⟨-, hu⟩
    · exact ih hu
    · exact ⟨conclusion, hcompletes.concludes hu⟩

/-- Every version with a report has a check run, which gets an update. -/
theorem exists_update_of_sent {changed : List ChangedFile} {outside : Bool} {specs : List Spec}
    {sent : List (List RunUpdate)} {spec : Spec}
    (hsent : List.Forall₂ (IsSent s request changed outside log runs) specs sent)
    (hspec : spec ∈ specs) : ∃ u ∈ sent.flatten, runs.lookup spec.render = some u.run := by
  induction hsent with
  | nil => cases hspec
  | cons hfirst _ ih =>
    rw [List.flatten_cons]
    rcases List.mem_cons.mp hspec with rfl | hspec
    · obtain ⟨n, hlookup, hreport⟩ := hfirst
      obtain ⟨_, _, progress, last, -, rfl⟩ := hreport.completes
      exact ⟨_, List.mem_append_left _ (List.mem_append_right _ List.mem_cons_self), hlookup⟩
    · obtain ⟨u, hu, hlookup⟩ := ih hspec
      exact ⟨u, List.mem_append_right _ hu, hlookup⟩

/-- In an attempt that is done, every touched version has a check run, which gets an update. -/
theorem exists_update_of_reported {spec : Spec} (h : Reported s request log runs)
    (hspec : spec ∈ touchedIn log) : ∃ u ∈ updates log, runs.lookup spec.render = some u.run := by
  rw [Reported] at h
  split at h
  · next hnone =>
    rw [touchedIn_of_unlisted hnone] at hspec
    cases hspec
  · next changed hsome =>
    obtain ⟨specs, outside, htouched, sent, hsent, hupdates⟩ := h
    rw [touchedIn_of_listed hsome htouched] at hspec
    rw [hupdates]
    exact exists_update_of_sent hsent hspec

theorem concludes_of_reported {n : Int} {u : RunUpdate} (h : Reported s request log runs)
    (hu : (updatesOf n log).getLast? = some u) : ∃ conclusion, u.conclusion = some conclusion := by
  rw [Reported] at h
  split at h
  · rw [updatesOf, h] at hu
    cases hu
  · obtain ⟨specs, outside, -, sent, hsent, hupdates⟩ := h
    rw [updatesOf, hupdates] at hu
    exact concludes_of_sent hsent hu

/-- A check run is left completed: the last update of it was accepted, and told a conclusion. -/
def IsLeftCompleted (n : Int) (log : List Exchange) : Prop :=
  ∃ e ∈ log, e.Succeeds ∧ ∃ output conclusion,
    e.update? = some ⟨n, output, some conclusion⟩ ∧ (updatesOf n log).getLast? = e.update?

theorem isLeftCompleted_of_reported {u : RunUpdate} (h : Reported s request log runs)
    (hsucceeds : ∀ e ∈ log, e.Succeeds) (hu : u ∈ updates log) : IsLeftCompleted u.run log := by
  have hmem : u ∈ updatesOf u.run log := List.mem_filter.mpr ⟨hu, beq_self_eq_true _⟩
  obtain ⟨last, hlast⟩ : ∃ last, (updatesOf u.run log).getLast? = some last :=
    ⟨_, List.getLast?_eq_getLast_of_ne_nil (List.ne_nil_of_mem hmem)⟩
  obtain ⟨hlastMem, hlastRun⟩ := List.mem_filter.mp (List.mem_of_getLast? hlast)
  obtain ⟨e, he, hupdate⟩ := List.mem_filterMap.mp hlastMem
  obtain ⟨conclusion, hconclusion⟩ := concludes_of_reported h hlast
  refine ⟨e, he, hsucceeds e he, last.output, conclusion, ?_, hlast.trans hupdate.symm⟩
  rw [hupdate, ← hconclusion, ← beq_iff_eq.mp hlastRun]

/-- The check run that a request names is completed when the check is done, provided that its package is
one of those that the pull request touches. -/
theorem rerun_completed (hclaim : (d.ledger.claim request).1 = some serial)
    (hrun : Attempt.Runs (Undisturbed serial) (handle s request) d log (.ok .done) d')
    (hsucceeds : ∀ e ∈ log, e.Succeeds) (hnamed : request.checkRun = some run)
    (htouched : run.name ∈ (touchedIn log).map Spec.render) : IsLeftCompleted run.id log := by
  obtain ⟨taken, r, given, hrecord, hheld, hlocked⟩ := locked_of_handle hclaim hrun
  obtain ⟨spec, hspec, hname⟩ := List.mem_map.mp htouched
  rcases attempted_of_handleLocked (c := ⟨request, serial⟩) hrecord.found hheld hlocked with
    ⟨-, -, rfl, -⟩ | ⟨-, ended, state, hresult, hattempted⟩
  · -- without an attempt no files were listed
    cases hspec
  · rcases hattempted.ends with ⟨rfl, ⟨rfl, hreported⟩ | ⟨rfl, -⟩⟩ | ⟨-, f, rfl, -⟩
    · obtain ⟨u, hu, hlookup⟩ := exists_update_of_reported hreported hspec
      rw [hname, List.lookup_append, lookup_startingRuns_named hnamed, Option.some_or] at hlookup
      rw [Option.some.inj hlookup]
      exact isLeftCompleted_of_reported hreported hsucceeds hu
    · cases hresult
    · cases hresult

/-! ## The other check runs -/

/-- What becomes of the check runs `old` of a record when an attempt runs one of them again. -/
structure RunsAgain (request : CheckRequest) (run : CheckRun) (old new : List (String × Int))
    (log : List Exchange) (state : State) : Prop where
  /-- The package has the check run that is named. -/
  named : new.lookup run.name = some run.id
  notAsked : run.name ∉ asked log
  /-- Unless new check runs are asked for, the other packages keep theirs. -/
  kept : request.rerequested = false → ∀ name, name ≠ run.name → (old.lookup name).isSome →
    new.lookup name = old.lookup name ∧ name ∉ asked log
  /-- Else they have none but those that the attempt created. -/
  renewed : request.rerequested = true → ∀ name, name ≠ run.name →
    new.lookup name = (createdRuns log).lookup name
  /-- These are asked for in the order of the touched versions, for all of them if the check is done. -/
  asks : request.rerequested = true →
    AsksFor (((touchedIn log).map Spec.render).filter (run.name != ·)) log (state = .done)
  single : (asked log).Nodup
  found : state = .done → ∀ spec ∈ touchedIn log, (new.lookup spec.render).isSome

theorem Attempted.runsAgain {ended : Except Failure Unit} {d : Desk}
    (h : Attempted s ⟨request, serial⟩ (r.startingRuns request) log ended state d)
    (hnamed : request.checkRun = some run) :
    RunsAgain request run r.runs (r.startingRuns request ++ createdRuns log) log state := by
  have hne {name : String} (hname : name ≠ run.name) (run' : CheckRun)
      (hrun' : request.checkRun = some run') : name ≠ run'.name := by
    rwa [← Option.some.inj (hnamed.symm.trans hrun')]
  have hstarts {name : String} (hasked : name ∈ asked log) :
      (r.startingRuns request).lookup name = none :=
    (mem_missing_iff.mp (h.asks.subset hasked)).2
  constructor
  case named => rw [List.lookup_append, lookup_startingRuns_named hnamed, Option.some_or]
  case notAsked =>
    intro hasked
    cases (hstarts hasked).symm.trans (lookup_startingRuns_named hnamed)
  case kept =>
    intro hplain name hname hsome
    obtain ⟨n, hn⟩ := Option.isSome_iff_exists.mp hsome
    have hstart : (r.startingRuns request).lookup name = some n := by
      rw [lookup_startingRuns_of_ne (hne hname), hplain]
      exact hn
    refine ⟨by rw [List.lookup_append, hstart, hn, Option.some_or], fun hasked => ?_⟩
    cases (hstarts hasked).symm.trans hstart
  case renewed =>
    intro hagain name hname
    rw [List.lookup_append, lookup_startingRuns_of_ne (hne hname), if_pos hagain, Option.none_or]
  case asks =>
    intro hagain
    have hasks := h.asks
    rwa [missing_of_rerequested hagain, hnamed] at hasks
  case single => exact (nodup_missing (nodup_names_touchedIn log)).sublist h.asks.inOrder.sublist
  case found =>
    intro hdone spec hspec
    rcases h.ends with ⟨-, ⟨-, hreported⟩ | ⟨hfailed, -⟩⟩ | ⟨hfailed, -⟩
    · obtain ⟨u, -, hlookup⟩ := exists_update_of_reported hreported hspec
      rw [hlookup]
      rfl
    · cases hdone.symm.trans hfailed
    · cases hdone.symm.trans hfailed

/-- A request that names a check run leaves the record with that check run for its package; what becomes
of the check runs of the other packages depends on whether new ones are asked for. -/
theorem handle_runs_again {result : Except Failure State}
    (hclaim : (d.ledger.claim request).1 = some serial)
    (hrun : Attempt.Runs (Undisturbed serial) (handle s request) d log result d')
    (hnamed : request.checkRun = some run) : ∃ taken r given,
      HasRecord request serial d taken r given d'
        ∧ if r.isSettledFor request then log = [] ∧ given.Holds serial r.state r.runs
          else ∃ state runs, (∀ final, result = .ok final → final = state)
            ∧ given.Holds serial state runs ∧ RunsAgain request run r.runs runs log state := by
  obtain ⟨taken, r, given, hrecord, hheld, hlocked⟩ := locked_of_handle hclaim hrun
  refine ⟨taken, r, given, hrecord, ?_⟩
  rcases attempted_of_handleLocked (c := ⟨request, serial⟩) hrecord.found hheld hlocked with
    ⟨hsettled, -, hlog, hgiven⟩ | ⟨hsettled, ended, state, rfl, hattempted⟩
  · rw [if_pos hsettled]
    exact ⟨hlog, hgiven⟩
  · rw [if_neg (Bool.eq_false_iff.mp hsettled)]
    refine ⟨state, _, fun final hfinal => ?_, hattempted.holds, hattempted.runsAgain hnamed⟩
    obtain ⟨_, -, rfl⟩ := map_eq_ok.mp hfinal
    rfl

/-! ## The check run of a package is run again, twice

GitHub asks for the check run of the first package again, from a desk without a record of the commit, and
once more when that is done. The pull request changes two packages and the rest of the repository, or the
rest of the repository alone. -/

/-- The request. -/
def rerunRequest : CheckRequest := { mixedRequest 1 with rerequested := true }

/-- The desk at first, with a token at hand. -/
def rerunStart : Desk := { tokens := mixedDesk.tokens }

/-- The desk with a record of the commit. -/
def rerunDesk (r : Record) (held : Bool) (notices : List Notice) : Desk where
  ledger :=
    { records := [{ r with serial := 0, key := rerunRequest.key, lock := { held } }], nextSerial := 1 }
  tokens := mixedDesk.tokens
  notices

/-- Whether the record of the commit is `r`, and its lock is held. -/
def Desk.IsRerun (r : Record) (d : Desk) : Prop := ∃ notices, d = rerunDesk r true notices

/-- The record when an attempt knows which files were changed. -/
def rerunFetching (attempts : Nat) : Record where
  key := rerunRequest.key
  state := .fetching
  runs := [("@preview/a:1.0.0", 1)]
  attempts

/-- The list of files that is asked for. -/
def rerunListing (files : List ChangedFile) : Exchange :=
  ⟨.filesOf "ghs" ⟨"typst/packages"⟩ 3, .ok files⟩

/-- An attempt comes to its end when what is done about the touched versions does. -/
theorem canRun_handleLocked_rerun {files : List ChangedFile} {specs : List Spec} {outside : Bool}
    {after : Record} (r : Record) (notices : List Notice)
    (htouched : touched files = .ok (specs, outside)) (hdone : after.state = .done)
    (hcheck : ∀ notices, Attempt.CanRun (Undisturbed 0)
      (if specs.isEmpty then Case.finish ⟨rerunRequest, 0⟩ "no package changed"
      else do
        specs.forM (ensureRun ⟨rerunRequest, 0⟩ "ghs")
        if outside then refuse ⟨rerunRequest, 0⟩ "ghs" specs
        else checkAll mixedService ⟨rerunRequest, 0⟩ "ghs" files specs)
      (rerunDesk (rerunFetching (r.attempts + 1)) true notices) log (.ok ()) (·.IsRerun after)) :
    Attempt.CanRun (Undisturbed 0) (handleLocked mixedService ⟨rerunRequest, 0⟩)
      (rerunDesk r true notices) (rerunListing files :: log) (.ok .done) (·.IsRerun after) := by
  have hlist (d : Desk) : Attempt.Runs (Undisturbed 0)
      (Attempt.call (.filesOf "ghs" ⟨"typst/packages"⟩ 3)) d [rerunListing files] (.ok files) d :=
    Attempt.runs_call.mpr ⟨rfl, .refl 0 _ _⟩
  have hspecs : .ok (specs, outside) = (touched files).mapError Failure.fault := by
    rw [htouched]
    rfl
  refine .lift_bind ((Case.runs_record rfl).mpr ⟨rfl, rfl, rfl⟩) ?_
  rw [if_neg (Record.not_isSettledFor_of_rerequested rfl)]
  refine .lift_bind (.done _ _) ?_
  refine .lift_bind (.done _ _) ?_
  refine .bind_last (a := ()) (p := (·.IsRerun after)) ?_ ?_
  · refine .bind (a := Except.ok "ghs") (Attempt.runs_of_done rfl) ?_
    refine .bind_last (a := Except.ok ()) (p := (·.IsRerun after)) (.outcome ?_)
      fun d₁ hd₁ => ⟨d₁, .done _ _, hd₁⟩
    refine .bind (a := ()) (Attempt.runs_of_done rfl) ?_
    refine .bind (a := some 3) (Attempt.runs_of_done rfl) ?_
    refine .bind (hlist _) ?_
    refine .bind (Attempt.runs_ofExcept.mpr ⟨rfl, hspecs, rfl⟩) ?_
    exact hcheck _
  · rintro d₁ ⟨notices, rfl⟩
    exact .lift_bind (.done _ _) ⟨_, Attempt.runs_pure.mpr ⟨rfl, by rw [← hdone]; rfl, rfl⟩, _, rfl⟩

/-- The delivery takes the lock at once. -/
theorem exists_run_rerun {d : Desk} {r after : Record} {notices : List Notice}
    (hclaim : (d.ledger.claim rerunRequest).1 = some 0)
    (htaken : (Task.acquire (.record 0)).Runs (Undisturbed 0)
      { d with ledger := (d.ledger.claim rerunRequest).2 } [] () (rerunDesk r true notices))
    (hlocked : Attempt.CanRun (Undisturbed 0) (handleLocked mixedService ⟨rerunRequest, 0⟩)
      (rerunDesk r true notices) log (.ok .done) (·.IsRerun after)) :
    ∃ notices, Attempt.Runs (Undisturbed 0) (handle mixedService rerunRequest) d log (.ok .done)
      (rerunDesk after false notices) := by
  obtain ⟨_, hlocked, notices, rfl⟩ := hlocked
  refine ⟨notices, Attempt.runs_lift_bind.mpr ⟨[], some 0, _, _, rfl,
    Task.runs_claim.mpr ⟨rfl, hclaim.symm, rfl⟩, ?_⟩⟩
  exact Attempt.runs_locked.mpr
    ⟨[], _, _, _, [], (List.append_nil _).symm, htaken, hlocked, .done _ _⟩

/-- The record after an attempt that created the check run `n` for the second package. -/
def rerunRecord (n : Int) (attempts : Nat) : Record where
  key := rerunRequest.key
  state := .done
  runs := [("@preview/a:1.0.0", 1), ("@preview/b:1.0.0", n)]
  reason := some "pull request changes files outside packages/"
  attempts

/-- What is asked for in such an attempt once the changed files are known. -/
def rerunRefusals (n : Int) : List Exchange :=
  [⟨.createRun "ghs" ⟨"typst/packages"⟩ "@preview/b:1.0.0" "abc",
      .ok { id := n, name := "@preview/b:1.0.0" }⟩, mixedRefusal 1, mixedRefusal n]

/-- All that is asked for. -/
def rerunLog (n : Int) : List Exchange := rerunListing mixedFiles :: rerunRefusals n

theorem canRun_refuse_rerun (n : Int) (attempts : Nat) (notices : List Notice) :
    Attempt.CanRun (Undisturbed 0)
      (do
        [mixedSpec "a", mixedSpec "b"].forM (ensureRun ⟨rerunRequest, 0⟩ "ghs")
        refuse ⟨rerunRequest, 0⟩ "ghs" [mixedSpec "a", mixedSpec "b"])
      (rerunDesk (rerunFetching attempts) true notices) (rerunRefusals n) (.ok ())
      (·.IsRerun (rerunRecord n attempts)) :=
  ⟨_, .wait _ (.refl 0 _ _) rfl (.wait _ (.refl 0 _ _) rfl (.wait _ (.refl 0 _ _) rfl (.done _ _))),
    _, rfl⟩

theorem canRun_mixed_rerun (n : Int) (r : Record) (notices : List Notice) :
    Attempt.CanRun (Undisturbed 0) (handleLocked mixedService ⟨rerunRequest, 0⟩)
      (rerunDesk r true notices) (rerunLog n) (.ok .done)
      (·.IsRerun (rerunRecord n (r.attempts + 1))) :=
  canRun_handleLocked_rerun r notices touched_mixedFiles rfl (canRun_refuse_rerun n _)

/-- The first delivery creates the check run 2, and the second one the check run 3. -/
theorem exists_runs_rerun : ∃ notices notices',
    Attempt.Runs (Undisturbed 0) (handle mixedService rerunRequest) rerunStart (rerunLog 2) (.ok .done)
        (rerunDesk (rerunRecord 2 1) false notices)
      ∧ Attempt.Runs (Undisturbed 0) (handle mixedService rerunRequest)
        (rerunDesk (rerunRecord 2 1) false notices) (rerunLog 3) (.ok .done)
        (rerunDesk (rerunRecord 3 2) false notices') := by
  have hfirst := canRun_mixed_rerun 2 { key := rerunRequest.key } []
  have hsecond (notices : List Notice) := canRun_mixed_rerun 3 (rerunRecord 2 1) notices
  obtain ⟨notices, hfirst⟩ := exists_run_rerun (d := rerunStart) rfl (.done _ _) hfirst
  obtain ⟨notices', hsecond⟩ :=
    exists_run_rerun (d := rerunDesk (rerunRecord 2 1) false notices) rfl (.done _ _) (hsecond notices)
  exact ⟨notices, notices', hfirst, hsecond⟩

theorem succeeds_rerunLog (n : Int) : ∀ e ∈ rerunLog n, e.Succeeds := by
  intro e he
  simp only [rerunLog, rerunRefusals, List.mem_cons, List.not_mem_nil, or_false] at he
  rcases he with rfl | rfl | rfl | rfl <;> exact ⟨_, rfl⟩

theorem touchedIn_rerunLog (n : Int) : touchedIn (rerunLog n) = [mixedSpec "a", mixedSpec "b"] :=
  touchedIn_of_listed rfl touched_mixedFiles

/-- The check run of the first package is left completed. -/
theorem rerun_completed_mixed : ∃ d' run,
    (rerunStart.ledger.claim rerunRequest).1 = some 0
      ∧ Attempt.Runs (Undisturbed 0) (handle mixedService rerunRequest) rerunStart (rerunLog 2)
        (.ok .done) d'
      ∧ (∀ e ∈ rerunLog 2, e.Succeeds) ∧ rerunRequest.checkRun = some run
      ∧ run.name ∈ (touchedIn (rerunLog 2)).map Spec.render
      ∧ IsLeftCompleted run.id (rerunLog 2) := by
  obtain ⟨notices, -, hrun, -⟩ := exists_runs_rerun
  have htouched : "@preview/a:1.0.0" ∈ (touchedIn (rerunLog 2)).map Spec.render := by
    rw [touchedIn_rerunLog]
    decide
  exact ⟨_, _, rfl, hrun, succeeds_rerunLog 2, rfl, htouched,
    rerun_completed rfl hrun (succeeds_rerunLog 2) rfl htouched⟩

/-- The record after an attempt that found no changed package. -/
def rerunRecordNone : Record where
  key := rerunRequest.key
  state := .done
  runs := [("@preview/a:1.0.0", 1)]
  reason := some "no package changed"
  attempts := 1

/-- If the pull request does not touch the package, the check is done without an update of the check run
that was to be run again. -/
theorem rerun_not_completed_readme :
    (∃ d', Attempt.Runs (Undisturbed 0) (handle mixedService rerunRequest) rerunStart
        [rerunListing [⟨"README.md", "modified", none⟩]] (.ok .done) d')
      ∧ (∀ e ∈ [rerunListing [⟨"README.md", "modified", none⟩]], e.Succeeds)
      ∧ rerunRequest.checkRun = some { id := 1, name := "@preview/a:1.0.0" }
      ∧ updatesOf 1 [rerunListing [⟨"README.md", "modified", none⟩]] = [] := by
  have htouched : touched [⟨"README.md", "modified", none⟩] = .ok ([], true) := by
    decide +kernel
  have hlocked : Attempt.CanRun (Undisturbed 0) (handleLocked mixedService ⟨rerunRequest, 0⟩)
      (rerunDesk { key := rerunRequest.key } true [])
      [rerunListing [⟨"README.md", "modified", none⟩]] (.ok .done) (·.IsRerun rerunRecordNone) :=
    canRun_handleLocked_rerun _ _ htouched rfl fun _ => ⟨_, .done _ _, _, rfl⟩
  obtain ⟨notices, hrun⟩ := exists_run_rerun (d := rerunStart) rfl (.done _ _) hlocked
  refine ⟨⟨_, hrun⟩, fun e he => ?_, rfl, rfl⟩
  rw [List.mem_singleton.mp he]
  exact ⟨_, rfl⟩

/-- The second delivery leaves the record with both check runs, the second of them a new one. -/
theorem handle_runs_again_mixed : ∃ d d',
    (d.ledger.claim rerunRequest).1 = some 0
      ∧ Attempt.Runs (Undisturbed 0) (handle mixedService rerunRequest) d (rerunLog 3) (.ok .done) d'
      ∧ rerunRequest.checkRun = some { id := 1, name := "@preview/a:1.0.0" }
      ∧ ∃ taken r given, HasRecord rerunRequest 0 d taken r given d'
        ∧ if r.isSettledFor rerunRequest then rerunLog 3 = [] ∧ given.Holds 0 r.state r.runs
          else ∃ state runs,
            (∀ final, (.ok .done : Except Failure State) = .ok final → final = state)
              ∧ given.Holds 0 state runs
              ∧ RunsAgain rerunRequest { id := 1, name := "@preview/a:1.0.0" } r.runs runs (rerunLog 3)
                state := by
  obtain ⟨notices, notices', -, hrun⟩ := exists_runs_rerun
  exact ⟨_, _, rfl, hrun, rfl, handle_runs_again rfl hrun rfl⟩

/-- The second package loses its check run 2, which is on record after the first delivery, to a new one
that the second delivery creates, although only the check run of the first package is named. -/
theorem rerun_replaces_other_run : ∃ d d' r r',
    Attempt.Runs (Undisturbed 0) (handle mixedService rerunRequest) rerunStart (rerunLog 2) (.ok .done) d
      ∧ Attempt.Runs (Undisturbed 0) (handle mixedService rerunRequest) d (rerunLog 3) (.ok .done) d'
      ∧ rerunRequest.checkRun = some { id := 1, name := "@preview/a:1.0.0" }
      ∧ mixedSpec "b" ∈ touchedIn (rerunLog 3)
      ∧ d.ledger.get? rerunRequest.key = some r ∧ r.runs.lookup (mixedSpec "b").render = some 2
      ∧ d'.ledger.get? rerunRequest.key = some r' ∧ r'.runs.lookup (mixedSpec "b").render = some 3
      ∧ (mixedSpec "b").render ∈ asked (rerunLog 3) := by
  obtain ⟨notices, notices', hfirst, hsecond⟩ := exists_runs_rerun
  have htouched : mixedSpec "b" ∈ touchedIn (rerunLog 3) := by
    rw [touchedIn_rerunLog]
    decide
  have hasked : (mixedSpec "b").render ∈ asked (rerunLog 3) := List.mem_singleton.mpr rfl
  exact ⟨_, _, _, _, hfirst, hsecond, rfl, htouched, rfl, rfl, rfl, rfl, hasked⟩

end TypstLint.Delivery
