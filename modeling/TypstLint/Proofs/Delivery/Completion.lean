import TypstLint.Proofs.Assoc
import TypstLint.Proofs.Delivery.Failures
import TypstLint.Proofs.Delivery.Reports
import TypstLint.Proofs.Delivery.Touched

set_option autoImplicit false

/-! # Check runs are completed

When a delivery returns, its attempt has left no check run open (`handle_completes_runs`). If the check
is done, every touched version got its report, of which the last update completes its check run
(`IsDone`); if it failed with a token, the last update of every check run on record completes it as
neutral (`IsFailed`).

How an attempt goes from the check runs that it starts with is said once, in `Attempted`. A delivery can
also be stopped, by a failure while check runs are completed after another failure
(`handle_returns_or_stops`). -/

namespace TypstLint.Delivery

open GitHub (Call ChangedFile CheckRun Failure Output)

variable {s : Service} {c : Case} {d d' : Desk} {log : List Exchange} {state : State}
  {runs start created : List (String × Int)} {token : String}

/-! ## Updates of one check run -/

theorem Completes.run_eq {run : Int} {outputs : List Output} {conclusion : String}
    {us : List RunUpdate} (h : Completes run outputs conclusion us) : ∀ u ∈ us, u.run = run := by
  obtain ⟨progress, last, -, rfl⟩ := h
  intro u hu
  rcases List.mem_append.mp hu with hu | hu
  · obtain ⟨output, -, rfl⟩ := List.mem_map.mp hu
    rfl
  · rw [List.mem_singleton.mp hu]

theorem IsReport.completes {request : CheckRequest} {changed : List ChangedFile} {outside : Bool}
    {spec : Spec} {run : Int} {us : List RunUpdate}
    (h : IsReport s request changed outside log spec run us) :
    ∃ outputs conclusion, Completes run outputs conclusion us := by
  cases outside with
  | true => exact ⟨_, _, h⟩
  | false =>
    obtain ⟨_, _, -, -, hsends⟩ := h
    exact ⟨_, _, hsends⟩

theorem IsReport.run_eq {request : CheckRequest} {changed : List ChangedFile} {outside : Bool}
    {spec : Spec} {run : Int} {us : List RunUpdate}
    (h : IsReport s request changed outside log spec run us) : ∀ u ∈ us, u.run = run := by
  obtain ⟨_, _, hcompletes⟩ := h.completes
  exact hcompletes.run_eq

/-- Every update is for the check run of one of the versions. -/
theorem exists_of_mem_sent {request : CheckRequest} {changed : List ChangedFile} {outside : Bool}
    {specs : List Spec} {sent : List (List RunUpdate)} {u : RunUpdate}
    (hsent : List.Forall₂ (IsSent s request changed outside log runs) specs sent)
    (hu : u ∈ sent.flatten) : ∃ spec ∈ specs, runs.lookup spec.render = some u.run := by
  induction hsent with
  | nil => cases hu
  | cons hfirst _ ih =>
    obtain ⟨run, hlookup, hreport⟩ := hfirst
    rw [List.flatten_cons] at hu
    rcases List.mem_append.mp hu with hu | hu
    · exact ⟨_, List.mem_cons_self, by rw [hlookup, hreport.run_eq u hu]⟩
    · obtain ⟨spec, hspec, hlookup⟩ := ih hu
      exact ⟨spec, List.mem_cons_of_mem _ hspec, hlookup⟩

/-- If the versions have check runs of their own, each check run gets the report of its version and
nothing else. -/
theorem isReport_of_sent {request : CheckRequest} {changed : List ChangedFile} {outside : Bool}
    {specs : List Spec} {sent : List (List RunUpdate)}
    (hsent : List.Forall₂ (IsSent s request changed outside log runs) specs sent)
    (hnodup : specs.Nodup)
    (hown : ∀ a ∈ specs, ∀ b ∈ specs, ∀ run, runs.lookup a.render = some run →
      runs.lookup b.render = some run → a = b) {spec : Spec} (hspec : spec ∈ specs) :
    ∃ run, runs.lookup spec.render = some run
      ∧ IsReport s request changed outside log spec run (sent.flatten.filter (·.run == run)) := by
  induction hsent with
  | nil => cases hspec
  | @cons first us rest sent hfirst hrest ih =>
    obtain ⟨hnotMem, hnodup⟩ := List.nodup_cons.mp hnodup
    obtain ⟨run, hlookup, hreport⟩ := hfirst
    rw [List.flatten_cons]
    rcases List.mem_cons.mp hspec with rfl | hspec
    · -- nothing behind the first report is for its check run
      have hothers : sent.flatten.filter (·.run == run) = [] := by
        refine List.filter_eq_nil_iff.mpr fun u hu heq => ?_
        obtain ⟨other, hother, hlookup'⟩ := exists_of_mem_sent hrest hu
        rw [beq_iff_eq.mp heq] at hlookup'
        have hsame :=
          hown _ List.mem_cons_self _ (List.mem_cons_of_mem _ hother) run hlookup hlookup'
        exact hnotMem (hsame ▸ hother)
      have hall : us.filter (·.run == run) = us :=
        List.filter_eq_self.mpr fun u hu => beq_iff_eq.mpr (hreport.run_eq u hu)
      refine ⟨run, hlookup, ?_⟩
      rwa [List.filter_append, hall, hothers, List.append_nil]
    · have hown' : ∀ a ∈ rest, ∀ b ∈ rest, ∀ run, runs.lookup a.render = some run →
          runs.lookup b.render = some run → a = b := fun a ha b hb =>
        hown a (List.mem_cons_of_mem _ ha) b (List.mem_cons_of_mem _ hb)
      obtain ⟨run', hlookup', hreport'⟩ := ih hnodup hown' hspec
      have hfirst : us.filter (·.run == run') = [] := by
        refine List.filter_eq_nil_iff.mpr fun u hu heq => ?_
        rw [← hreport.run_eq u hu, beq_iff_eq.mp heq] at hlookup
        have hsame :=
          hown _ List.mem_cons_self _ (List.mem_cons_of_mem _ hspec) run' hlookup hlookup'
        exact hnotMem (hsame ▸ hspec)
      refine ⟨run', hlookup', ?_⟩
      rwa [List.filter_append, hfirst, List.nil_append]

/-! ## Check runs of their own -/

/-- The check runs that are created are new, and different from one another. -/
structure AreFresh (start created : List (String × Int)) : Prop where
  distinct : (created.map Prod.snd).Nodup
  new : ∀ run ∈ created.map Prod.snd, run ∉ start.map Prod.snd

/-- No two of the versions start with the same check run. -/
def StartApart (start : List (String × Int)) (specs : List Spec) : Prop :=
  ∀ a ∈ specs, ∀ b ∈ specs, ∀ run, start.lookup a.render = some run →
    start.lookup b.render = some run → a = b

/-- Versions that start apart stay apart when new check runs are created. -/
theorem apart_of_fresh {files : List ChangedFile} {specs : List Spec} {outside : Bool}
    (htouched : touched files = .ok (specs, outside)) (hfresh : AreFresh start created)
    (hstart : StartApart start specs) {a b : Spec} (ha : a ∈ specs) (hb : b ∈ specs) {run : Int}
    (hrunA : (start ++ created).lookup a.render = some run)
    (hrunB : (start ++ created).lookup b.render = some run) : a = b := by
  have hnew {name name' : String} (hold : start.lookup name = some run)
      (hcreated : created.lookup name' = some run) : False :=
    hfresh.new run (List.mem_map_of_mem (Assoc.mem_of_lookup hcreated))
      (List.mem_map_of_mem (Assoc.mem_of_lookup hold))
  rw [List.lookup_append] at hrunA hrunB
  rcases Option.or_eq_some_iff.mp hrunA with hA | ⟨-, hA⟩
  · rcases Option.or_eq_some_iff.mp hrunB with hB | ⟨-, hB⟩
    · exact hstart a ha b hb run hA hB
    · exact (hnew hA hB).elim
  · rcases Option.or_eq_some_iff.mp hrunB with hB | ⟨-, hB⟩
    · exact (hnew hB hA).elim
    · have hsame := List.inj_on_of_nodup_map hfresh.distinct (Assoc.mem_of_lookup hA)
        (Assoc.mem_of_lookup hB) rfl
      exact render_inj_of_touched htouched ha hb (congrArg Prod.fst hsame)

/-! ## The end of an attempt -/

/-- Every version that the listed files touch has a check run, which nothing but the report of the
version is sent to, as long as no two of them share a check run; and no other check run is updated.
Without a list of files nothing is sent. -/
structure IsDone (s : Service) (request : CheckRequest) (start : List (String × Int))
    (log : List Exchange) : Prop where
  unlisted : changedFiles log = none → updates log = []
  listed : ∀ changed, changedFiles log = some changed → ∃ specs outside,
    touched changed = .ok (specs, outside)
      ∧ (∀ u ∈ updates log, ∃ spec ∈ specs,
        (start ++ createdRuns log).lookup spec.render = some u.run)
      ∧ (AreFresh start (createdRuns log) → StartApart start specs → ∀ spec ∈ specs, ∃ run,
        (start ++ createdRuns log).lookup spec.render = some run
          ∧ IsReport s request changed outside log spec run (updatesOf run log))

/-- If there was a token, the last update of every check run completes it as neutral. -/
def IsFailed (start : List (String × Int)) (log : List Exchange) : Prop :=
  (∃ e ∈ log, e.HasToken) → ∀ run ∈ (start ++ createdRuns log).map Prod.snd,
    (updatesOf run log).getLast? = some ⟨run, fatalError, some "neutral"⟩

theorem isDone_of_reported {request : CheckRequest}
    (h : Reported s request log (start ++ createdRuns log)) : IsDone s request start log := by
  rw [Reported] at h
  split at h
  · next hnone =>
    refine ⟨fun _ => h, fun changed hsome => ?_⟩
    cases hnone.symm.trans hsome
  · next changed hsome =>
    obtain ⟨specs, outside, htouched, sent, hsent, hupdates⟩ := h
    refine ⟨fun hnone => ?_, fun changed' hsome' => ?_⟩
    · cases hsome.symm.trans hnone
    obtain rfl := Option.some.inj (hsome.symm.trans hsome')
    refine ⟨specs, outside, htouched, fun u hu => ?_, fun hfresh hstart spec hspec => ?_⟩
    · exact exists_of_mem_sent hsent (hupdates ▸ hu)
    · simp only [updatesOf, hupdates]
      exact isReport_of_sent hsent (nodup_touched htouched)
        (fun a ha b hb _ => apart_of_fresh htouched hfresh hstart ha hb) hspec

theorem isFailed_of_failedUpdates {log₁ log₂ : List Exchange} (hcreated : createdRuns log₂ = [])
    (hupdates : updates log₂ = failedUpdates (start ++ createdRuns log₁)) :
    IsFailed start (log₁ ++ log₂) := by
  intro _ run hrun
  rw [createdRuns_append, hcreated, List.append_nil] at hrun
  obtain ⟨entry, hentry, rfl⟩ := List.mem_map.mp hrun
  have hmem : (⟨entry.2, fatalError, some "neutral"⟩ : RunUpdate) ∈ updatesOf entry.2 log₂ := by
    rw [updatesOf, hupdates]
    exact List.mem_filter.mpr ⟨List.mem_map_of_mem hentry, beq_self_eq_true _⟩
  rw [updatesOf_append, List.getLast?_append_of_ne_nil _ (List.ne_nil_of_mem hmem),
    List.getLast?_eq_getLast_of_ne_nil (List.ne_nil_of_mem hmem)]
  -- all of these updates are the same
  have hlast := List.getLast_mem (List.ne_nil_of_mem hmem)
  obtain ⟨hlast, hrun⟩ := List.mem_filter.mp hlast
  rw [hupdates] at hlast
  obtain ⟨entry', -, heq⟩ := List.mem_map.mp hlast
  rw [← heq] at hrun ⊢
  have hsame : entry'.2 = entry.2 := beq_iff_eq.mp hrun
  rw [hsame]

/-- How an attempt goes that starts with the check runs `start`: it asks for those that are missing, and
ends with the check done or failed, or is stopped by an unexpected failure while it completes the check
runs after another one. -/
structure Attempted (s : Service) (c : Case) (start : List (String × Int)) (log : List Exchange)
    (result : Except Failure Unit) (state : State) (d' : Desk) : Prop where
  holds : d'.Holds c.serial state (start ++ createdRuns log)
  asks : AsksFor (missing start (touchedIn log)) log (state = .done)
  ends : result = .ok () ∧ (state = .done ∧ Reported s c.request log (start ++ createdRuns log)
      ∨ state = .failed ∧ IsFailed start log)
    ∨ state = .failed ∧ ∃ f, result = .error f ∧ IsStopped f log

/-- An attempt that fails after it has asked for the check runs that it could. Who has no token then has
not asked for anything with one. -/
theorem attempted_of_fail {log₁ log₂ : List Exchange} {whole : Prop} {withToken : Option String}
    {failure : Failure} {result : Except Failure Unit}
    (hd : d.Holds c.serial state (start ++ createdRuns log₁)) (hterminal : state.isTerminal = false)
    (hasks : AsksFor (missing start (touchedIn log₁)) log₁ whole)
    (htoken : withToken = none → ∀ e ∈ log₁, ¬ e.HasToken)
    (h : Attempt.Runs (Undisturbed c.serial) (fail c withToken failure) d log₂ result d') :
    Attempted s c start (log₁ ++ log₂) result .failed d' := by
  obtain ⟨hreports, hd', hends⟩ := runs_fail hd hterminal h
  have hasked : asked log₂ = [] := asked_of_reports hreports
  have hcreated : createdRuns log₂ = [] := createdRuns_of_asked hasked
  constructor
  case holds => rwa [createdRuns_append, hcreated, List.append_nil]
  case asks =>
    rw [touchedIn_before (changedFiles_of_reports hreports)]
    exact hasks.before hasked nofun
  case ends =>
    rcases hends with ⟨hok, hupdates⟩ | ⟨f, hf, hstopped⟩
    · refine .inl ⟨hok, .inr ⟨rfl, ?_⟩⟩
      cases withToken with
      | none =>
        obtain rfl : log₂ = [] := hupdates
        rintro ⟨e, he, hwith⟩
        rw [List.append_nil] at he
        exact absurd hwith (htoken rfl e he)
      | some token => exact isFailed_of_failedUpdates hcreated hupdates
    · exact .inr ⟨rfl, f, hf, hstopped.behind log₁⟩

theorem runs_attempt {result : Except Failure Unit} (hd : d.Holds c.serial .received start)
    (h : Attempt.Runs (Undisturbed c.serial) (attempt s c) d log result d') :
    ∃ state, Attempted s c start log result state d' := by
  rw [attempt, Attempt.runs_bind] at h
  rcases h with ⟨e, -, h⟩ | ⟨log₁, authenticated, d₁, log₂, rfl, hauthenticate, h⟩
  · obtain ⟨_, he, -⟩ := Attempt.runs_outcome.mp h
    cases he
  obtain ⟨_, he, hauthenticate⟩ := Attempt.runs_outcome.mp hauthenticate
  obtain rfl := Except.ok.inj he
  obtain ⟨hd₁, haside, hnoToken⟩ := runs_authenticate hd hauthenticate
  have hasked₁ : asked log₁ = [] := asked_of_aside haside
  have hcreated₁ : createdRuns log₁ = [] := createdRuns_of_asked hasked₁
  cases authenticated with
  | error e =>
    have hasks : AsksFor (missing start (touchedIn log₁)) log₁ False := by
      rw [touchedIn_of_unlisted (changedFiles_of_aside haside)]
      exact .of_eq hasked₁
    exact ⟨.failed,
      attempted_of_fail (hd₁.append_none hcreated₁) rfl hasks (fun _ => hnoToken e rfl) h⟩
  | ok token =>
    dsimp only at h
    rw [Attempt.runs_bind] at h
    rcases h with ⟨e, -, h⟩ | ⟨log₃, performed, d₂, log₄, rfl, hperform, h⟩
    · obtain ⟨_, he, -⟩ := Attempt.runs_outcome.mp h
      cases he
    obtain ⟨_, he, hperform⟩ := Attempt.runs_outcome.mp hperform
    obtain rfl := Except.ok.inj he
    obtain ⟨hends, hasks, hreported⟩ := runs_perform hd₁ hperform
    have hcreated₃ : createdRuns (log₁ ++ log₃) = createdRuns log₃ := by
      rw [createdRuns_append, hcreated₁, List.nil_append]
    rw [← hcreated₃] at hends hreported
    replace hasks := hasks.behind hasked₁
    rw [← touchedIn_behind (changedFiles_of_aside haside)] at hasks
    rw [← List.append_assoc]
    rcases hends with ⟨rfl, hd₂⟩ | ⟨e, state, rfl, hterminal, hd₂⟩
    · obtain ⟨rfl, rfl, rfl⟩ := Attempt.runs_pure.mp h
      rw [List.append_nil]
      exact ⟨.done, hd₂, hasks.mono fun _ => rfl,
        .inl ⟨rfl, .inl ⟨rfl, (hreported rfl).behind haside⟩⟩⟩
    · have htoken (hnone : some token = none) : ∀ e ∈ log₁ ++ log₃, ¬ e.HasToken := by
        cases hnone
      exact ⟨.failed, attempted_of_fail hd₂ hterminal hasks htoken h⟩

/-! ## Deliveries -/

/-- How a delivery ends that finds the record `r` when it has the lock. -/
def EndsLocked (s : Service) (request : CheckRequest) (serial : Nat) (r : Record) (log : List Exchange)
    (state : State) (d' : Desk) : Prop :=
  if r.isSettledFor request then state = .done ∧ log = [] ∧ d'.Holds serial r.state r.runs
  else
    d'.Holds serial state (r.startingRuns request ++ createdRuns log)
      ∧ (state = .done ∧ IsDone s request (r.startingRuns request) log
        ∨ state = .failed ∧ IsFailed (r.startingRuns request) log)

/-- A delivery that has the lock of its record finds that nothing is left to do, or makes an attempt. -/
theorem attempted_of_handleLocked {r : Record} {result : Except Failure State}
    (hfind : d.ledger.find? c.serial = some r) (hheld : r.lock.held = true)
    (h : Attempt.Runs (Undisturbed c.serial) (handleLocked s c) d log result d') :
    (r.isSettledFor c.request = true ∧ result = .ok .done ∧ log = []
        ∧ d'.Holds c.serial r.state r.runs)
      ∨ r.isSettledFor c.request = false ∧ ∃ ended state, result = ended.map (fun _ => state)
        ∧ Attempted s c (r.startingRuns c.request) log ended state d' := by
  rw [handleLocked, Attempt.runs_lift_bind] at h
  obtain ⟨_, r₁, d₁, _, rfl, hrecord, h⟩ := h
  obtain ⟨rfl, rfl, rfl⟩ := (Case.runs_record hfind).mp hrecord
  split at h
  · next hsettled =>
    rw [Attempt.runs_lift_bind] at h
    obtain ⟨_, _, _, _, rfl, hnote, h⟩ := h
    obtain ⟨rfl, rfl⟩ := Task.runs_note.mp hnote
    obtain ⟨rfl, rfl, rfl⟩ := Attempt.runs_pure.mp h
    exact .inl ⟨hsettled, rfl, rfl, r₁, hfind, hheld, rfl, rfl⟩
  · next hsettled =>
    rw [Attempt.runs_lift_bind] at h
    obtain ⟨_, _, d₂, _, rfl, hrestart, h⟩ := h
    obtain ⟨rfl, hd₂⟩ := Case.holds_of_update hrestart hfind (fun _ hr => hr) hheld
    rw [Attempt.runs_lift_bind] at h
    obtain ⟨_, _, d₃, _, rfl, hnote, h⟩ := h
    obtain ⟨rfl, hnoted⟩ := Task.runs_note.mp hnote
    have hd₃ : d₃.Holds c.serial .received (r₁.startingRuns c.request) := hnoted ▸ hd₂
    refine .inr ⟨Bool.eq_false_iff.mpr hsettled, ?_⟩
    rw [List.nil_append, List.nil_append]
    rw [Attempt.runs_bind] at h
    rcases h with ⟨e, rfl, h⟩ | ⟨log₁, _, d₄, log₂, rfl, hattempt, h⟩
    · obtain ⟨state, hattempted⟩ := runs_attempt hd₃ h
      exact ⟨.error e, state, rfl, hattempted⟩
    · obtain ⟨state, hattempted⟩ := runs_attempt hd₃ hattempt
      -- what is returned is the state on record
      obtain ⟨r₄, hfind₄, -, hstate₄, -⟩ := hattempted.holds
      rw [Attempt.runs_lift_bind] at h
      obtain ⟨_, _, d₅, _, rfl, hrecord, h⟩ := h
      obtain ⟨rfl, rfl, rfl⟩ := (Case.runs_record hfind₄).mp hrecord
      obtain ⟨rfl, rfl, rfl⟩ := Attempt.runs_pure.mp h
      rw [List.append_nil, List.append_nil]
      exact ⟨.ok (), state, by rw [hstate₄]; rfl, hattempted⟩

/-- A delivery that has the lock of its record returns with the check done or failed, unless it is stopped
while it completes the check runs after a failure; then the record is failed. -/
theorem runs_handleLocked_or_stopped {r : Record} {result : Except Failure State}
    (hfind : d.ledger.find? c.serial = some r) (hheld : r.lock.held = true)
    (h : Attempt.Runs (Undisturbed c.serial) (handleLocked s c) d log result d') :
    (∃ state, result = .ok state ∧ EndsLocked s c.request c.serial r log state d')
      ∨ ∃ f, result = .error f ∧ IsStopped f log
        ∧ d'.Holds c.serial .failed (r.startingRuns c.request ++ createdRuns log) := by
  rcases attempted_of_handleLocked hfind hheld h with
    ⟨hsettled, rfl, rfl, hd'⟩ | ⟨hsettled, ended, state, rfl, hattempted⟩
  · refine .inl ⟨.done, rfl, ?_⟩
    rw [EndsLocked, if_pos hsettled]
    exact ⟨rfl, rfl, hd'⟩
  · rcases hattempted.ends with ⟨rfl, hends⟩ | ⟨rfl, f, rfl, hstopped⟩
    · refine .inl ⟨state, rfl, ?_⟩
      rw [EndsLocked, if_neg (Bool.eq_false_iff.mp hsettled)]
      exact ⟨hattempted.holds, hends.imp_left (And.imp_right isDone_of_reported)⟩
    · exact .inr ⟨f, rfl, hstopped, hattempted.holds⟩

theorem runs_handleLocked {r : Record} {result : Except Failure State}
    (hfind : d.ledger.find? c.serial = some r) (hheld : r.lock.held = true)
    (h : Attempt.Runs (Undisturbed c.serial) (handleLocked s c) d log result d')
    (hexpected : ∀ e ∈ log, e.UpdateIsExpected) :
    ∃ state, result = .ok state ∧ EndsLocked s c.request c.serial r log state d' := by
  rcases runs_handleLocked_or_stopped hfind hheld h with hends | ⟨f, -, hstopped, -⟩
  · exact hends
  · exact absurd hexpected hstopped.unexpected

/-- How a delivery with a record to work on goes. It takes the lock on the desk `taken`, where it finds
the record `r`, and gives the lock back on the desk `given`. If the record asks for work, an attempt is
made, which starts with the check runs of the record and adds those that it creates; no check run is
left open. -/
def Handles (s : Service) (request : CheckRequest) (serial : Nat) (d : Desk) (log : List Exchange)
    (state : State) (d' : Desk) : Prop :=
  ∃ taken r given,
    (Task.acquire (.record serial)).Runs (Undisturbed serial)
      { d with ledger := (d.ledger.claim request).2 } [] () taken
    ∧ taken.ledger.find? serial = some r
    ∧ (Task.release (.record serial)).Runs (Undisturbed serial) given [] () d'
    ∧ if r.isSettledFor request then state = .done ∧ log = [] ∧ given.Holds serial r.state r.runs
      else
        given.Holds serial state (r.startingRuns request ++ createdRuns log)
          ∧ (state = .done ∧ IsDone s request (r.startingRuns request) log
            ∨ state = .failed ∧ IsFailed (r.startingRuns request) log)

/-- A delivery that claims a record returns, with the check done or failed, and leaves no check run
open, whatever else goes wrong with its calls. -/
theorem handle_completes_runs {request : CheckRequest} {serial : Nat} {result : Except Failure State}
    (hclaim : (d.ledger.claim request).1 = some serial)
    (hrun : Attempt.Runs (Undisturbed serial) (handle s request) d log result d')
    (hexpected : ∀ e ∈ log, e.UpdateIsExpected) :
    ∃ state, result = .ok state ∧ Handles s request serial d log state d' := by
  rw [handle, Attempt.runs_lift_bind] at hrun
  obtain ⟨_, claimed, d₁, _, rfl, hclaimed, hrun⟩ := hrun
  obtain ⟨rfl, rfl, rfl⟩ := Task.runs_claim.mp hclaimed
  rw [hclaim] at hrun
  obtain ⟨log₁, taken, log₂, given, log₃, rfl, hacquire, hlocked, hrelease⟩ :=
    Attempt.runs_locked.mp hrun
  obtain ⟨rfl, state₁, runs₁, r, hfind, hheld, -, -⟩ :=
    Task.holds_of_acquire (Ledger.find?_claim hclaim) hacquire
  obtain ⟨rfl, -⟩ := Task.runs_modify.mp hrelease
  rw [List.nil_append, List.nil_append, List.append_nil] at hexpected ⊢
  obtain ⟨state, hok, hends⟩ :=
    runs_handleLocked (c := ⟨request, serial⟩) hfind hheld hlocked hexpected
  exact ⟨state, hok, taken, r, given, hacquire, hfind, hrelease, hends⟩

/-! ## Two packages and another file

A pull request that changes two packages and the rest of the repository is refused on both check runs.
The request names the check run of the first package. -/

/-- The changed files. -/
def mixedFiles : List ChangedFile :=
  [⟨"packages/preview/a/1.0.0/typst.toml", "added", none⟩,
    ⟨"packages/preview/b/1.0.0/typst.toml", "added", none⟩, ⟨"README.md", "modified", none⟩]

/-- One of the touched versions. -/
def mixedSpec (name : String) : Spec := ⟨"preview", name, ⟨1, 0, 0⟩⟩

theorem touched_mixedFiles :
    touched mixedFiles = .ok ([mixedSpec "a", mixedSpec "b"], true) := by
  have hplaces : (changedPaths mixedFiles).mapM placeOf =
      .ok [.package (mixedSpec "a"), .package (mixedSpec "b"), .outside] := rfl
  have hsorted : [mixedSpec "a", mixedSpec "b"].mergeSort (fun a b => decide (a.render ≤ b.render)) =
      [mixedSpec "a", mixedSpec "b"] := List.mergeSort_of_pairwise (by decide)
  rw [touched, hplaces]
  exact congrArg (fun specs => Except.ok (specs, true)) hsorted

/-- The request, with the number of the check run of the first package. -/
def mixedRequest (run : Int) : CheckRequest :=
  { installation := 7, repository := ⟨"typst/packages"⟩, headSha := "abc", pullNumber := some 3
    checkRun := some { id := run, name := "@preview/a:1.0.0" } }

/-- The record of the commit: a failed attempt has left the check runs 1 and 2. -/
def mixedRecord : Record where
  key := ⟨"typst/packages", "abc"⟩
  state := .failed
  runs := [("@preview/a:1.0.0", 1), ("@preview/b:1.0.0", 2)]

/-- The desk, with a token at hand. -/
def mixedDesk : Desk where
  ledger := { records := [mixedRecord], nextSerial := 1 }
  tokens := { entries := [(7, ⟨"ghs", ⟨10000000000, none⟩⟩)] }

/-- What the request is handled with. -/
def mixedService : Service where
  registry := ⟨.empty, []⟩
  credentials := ⟨1, fun _ => .error "no key"⟩

/-- The refusal that goes to a check run. -/
def mixedRefusal (run : Int) : Exchange :=
  ⟨.updateRun "ghs" ⟨"typst/packages"⟩ run tooManyThings (some "failure"),
    .ok (CheckRun.mk run "" none none none none)⟩

/-- The list of files that is asked for. -/
def mixedListing : Exchange := ⟨.filesOf "ghs" ⟨"typst/packages"⟩ 3, .ok mixedFiles⟩

/-- The desk when the changed files are known. -/
def mixedFetching (run : Int) (notices : List Notice) : Desk :=
  { mixedDesk with
    ledger :=
      { records :=
          [{ mixedRecord with
            state := .fetching
            runs := [("@preview/a:1.0.0", run), ("@preview/b:1.0.0", 2)]
            attempts := 1
            lock := { held := true } }]
        nextSerial := 1 }
    notices }

/-- The check runs at the start of the attempt. -/
def mixedStart (run : Int) : List (String × Int) := mixedRecord.startingRuns (mixedRequest run)

theorem canRun_refuse_mixed (run : Int) (notices : List Notice) :
    Attempt.CanRun (Undisturbed 0)
      (do
        [mixedSpec "a", mixedSpec "b"].forM (ensureRun ⟨mixedRequest run, 0⟩ "ghs")
        refuse ⟨mixedRequest run, 0⟩ "ghs" [mixedSpec "a", mixedSpec "b"])
      (mixedFetching run notices) [mixedRefusal run, mixedRefusal 2] (.ok ())
      (·.Holds 0 .done (mixedStart run)) :=
  ⟨_, .wait _ (.refl 0 _ _) rfl (.wait _ (.refl 0 _ _) rfl (.done _ _)), _, rfl, rfl, rfl, rfl⟩

theorem canRun_handleLocked_mixed (run : Int) {d : Desk}
    (hd : d = { mixedDesk with ledger := (mixedDesk.ledger.claim (mixedRequest run)).2 }.updateLock
      (.record 0) Lock.take) :
    Attempt.CanRun (Undisturbed 0) (handleLocked mixedService ⟨mixedRequest run, 0⟩) d
      [mixedListing, mixedRefusal run, mixedRefusal 2] (.ok .done) fun _ => True := by
  have hlist (d : Desk) : Attempt.Runs (Undisturbed 0)
      (Attempt.call (.filesOf "ghs" ⟨"typst/packages"⟩ 3)) d [mixedListing] (.ok mixedFiles) d :=
    Attempt.runs_call.mpr ⟨rfl, .refl 0 _ _⟩
  have hspecs : .ok ([mixedSpec "a", mixedSpec "b"], true) =
      (touched mixedFiles).mapError Failure.fault := by
    rw [touched_mixedFiles]
    rfl
  subst hd
  refine .lift_bind (.done _ _) ?_
  refine .lift_bind (.done _ _) ?_
  refine .lift_bind (.done _ _) ?_
  refine .bind_last (a := ()) (p := (·.Holds 0 .done (mixedStart run))) ?_ fun d₁ hd₁ => ?_
  · refine .bind (a := Except.ok "ghs") (Attempt.runs_of_done rfl) ?_
    refine .bind_last (a := Except.ok ()) (p := (·.Holds 0 .done (mixedStart run))) (.outcome ?_)
      fun d₁ hd₁ => ⟨d₁, .done _ _, hd₁⟩
    refine .bind (a := ()) (Attempt.runs_of_done rfl) ?_
    refine .bind (a := some 3) (Attempt.runs_of_done rfl) ?_
    refine .bind (hlist _) ?_
    refine .bind (Attempt.runs_ofExcept.mpr ⟨rfl, hspecs, rfl⟩) ?_
    exact canRun_refuse_mixed run _
  · obtain ⟨r, hr, -, hstate, -⟩ := hd₁
    exact .lift_bind ((Case.runs_record hr).mpr ⟨rfl, rfl, rfl⟩)
      ⟨d₁, Attempt.runs_pure.mpr ⟨rfl, by rw [hstate], rfl⟩, trivial⟩

theorem exists_run_mixed (run : Int) :
    ∃ d', Attempt.Runs (Undisturbed 0) (handle mixedService (mixedRequest run)) mixedDesk
      [mixedListing, mixedRefusal run, mixedRefusal 2] (.ok .done) d' := by
  obtain ⟨d, hlocked, -⟩ := canRun_handleLocked_mixed run rfl
  exact ⟨_, Attempt.runs_lift_bind.mpr ⟨[], some 0, _, _, rfl, .done _ _,
    Attempt.runs_locked.mpr ⟨[], _, _, d, [], rfl, .done _ _, hlocked, .done _ _⟩⟩⟩

theorem expected_mixed (run : Int) :
    ∀ e ∈ [mixedListing, mixedRefusal run, mixedRefusal 2], e.UpdateIsExpected := by
  intro e he
  rcases List.mem_cons.mp he with rfl | he
  · exact trivial
  · rcases List.mem_cons.mp he with rfl | he
    · exact trivial
    · rw [List.mem_singleton.mp he]
      exact trivial

theorem areFresh_mixed (run : Int) :
    AreFresh (mixedStart run) (createdRuns [mixedListing, mixedRefusal run, mixedRefusal 2]) :=
  ⟨List.nodup_nil, List.forall_mem_nil _⟩

theorem startApart_mixed : StartApart (mixedStart 1) [mixedSpec "a", mixedSpec "b"] := by
  have hfirst : (mixedStart 1).lookup (mixedSpec "a").render = some 1 := rfl
  have hsecond : (mixedStart 1).lookup (mixedSpec "b").render = some 2 := rfl
  intro a ha b hb run hrunA hrunB
  simp only [List.mem_cons, List.not_mem_nil, or_false] at ha hb
  rcases ha with rfl | rfl <;> rcases hb with rfl | rfl
  · rfl
  · cases hfirst.symm.trans (hrunA.trans (hrunB.symm.trans hsecond))
  · cases hsecond.symm.trans (hrunA.trans (hrunB.symm.trans hfirst))
  · rfl

/-- If the request names the check run that the first package has, both check runs are completed. -/
theorem handle_completes_runs_mixed : ∃ d' state,
    (mixedDesk.ledger.claim (mixedRequest 1)).1 = some 0
      ∧ Attempt.Runs (Undisturbed 0) (handle mixedService (mixedRequest 1)) mixedDesk
        [mixedListing, mixedRefusal 1, mixedRefusal 2] (.ok .done) d'
      ∧ (∀ e ∈ [mixedListing, mixedRefusal 1, mixedRefusal 2], e.UpdateIsExpected)
      ∧ AreFresh (mixedStart 1) (createdRuns [mixedListing, mixedRefusal 1, mixedRefusal 2])
      ∧ StartApart (mixedStart 1) [mixedSpec "a", mixedSpec "b"]
      ∧ (.ok .done : Except Failure State) = .ok state
      ∧ Handles mixedService (mixedRequest 1) 0 mixedDesk
        [mixedListing, mixedRefusal 1, mixedRefusal 2] state d' := by
  obtain ⟨d', hrun⟩ := exists_run_mixed 1
  obtain ⟨state, hok, hhandles⟩ := handle_completes_runs rfl hrun (expected_mixed 1)
  exact ⟨d', state, rfl, hrun, expected_mixed 1, areFresh_mixed 1, startApart_mixed, hok, hhandles⟩

/-- If the request names the check run of the second package for the first one, that check run is
completed twice, although the check ends as done, all updates succeed and no check run is created. -/
theorem shared_run_completed_twice :
    (∃ d', Attempt.Runs (Undisturbed 0) (handle mixedService (mixedRequest 2)) mixedDesk
        [mixedListing, mixedRefusal 2, mixedRefusal 2] (.ok .done) d')
      ∧ (∀ e ∈ [mixedListing, mixedRefusal 2, mixedRefusal 2], e.UpdateIsExpected)
      ∧ AreFresh (mixedStart 2) (createdRuns [mixedListing, mixedRefusal 2, mixedRefusal 2])
      ∧ changedFiles [mixedListing, mixedRefusal 2, mixedRefusal 2] = some mixedFiles
      ∧ touched mixedFiles = .ok ([mixedSpec "a", mixedSpec "b"], true)
      ∧ (mixedStart 2).lookup (mixedSpec "b").render = some 2
      ∧ ¬ ∃ outputs conclusion, Completes 2 outputs conclusion
        (updatesOf 2 [mixedListing, mixedRefusal 2, mixedRefusal 2]) := by
  refine ⟨exists_run_mixed 2, expected_mixed 2, areFresh_mixed 2, rfl, touched_mixedFiles, rfl, ?_⟩
  rintro ⟨outputs, conclusion, progress, last, -, hupdates⟩
  -- the first of two updates would have to leave the check run in progress
  have htwice : updatesOf 2 [mixedListing, mixedRefusal 2, mixedRefusal 2] =
      [⟨2, tooManyThings, some "failure"⟩, ⟨2, tooManyThings, some "failure"⟩] := rfl
  rw [htwice] at hupdates
  cases progress with
  | nil => cases hupdates
  | cons output progress =>
    have hfirst := (List.cons.inj hupdates).1
    cases congrArg RunUpdate.conclusion hfirst

end TypstLint.Delivery

/-! ## How deliveries end

Whatever is answered to its calls, a delivery returns with the check done or failed, with one exception:
while it completes the check runs after a failure, one of these updates fails in turn, and not with a
client error. -/

namespace TypstLint.Delivery

open GitHub (Failure)

variable {s : Service} {d d' : Desk} {log : List Exchange} {serial : Nat} {request : CheckRequest}

/-- How a delivery goes that returns: it asks for nothing if nothing is left to do, and else handles its
record. -/
def Returns (s : Service) (request : CheckRequest) (d : Desk) (log : List Exchange) (state : State)
    (d' : Desk) : Prop :=
  match (d.ledger.claim request).1 with
  | none => state = .done ∧ log = []
  | some serial => Handles s request serial d log state d'

/-- How a delivery goes that is stopped by the failure of an update after another failure. The record is
failed then, and its lock is given back, but check runs behind the one that was to be updated are left as
they are. -/
def StopsWith (request : CheckRequest) (serial : Nat) (d : Desk) (log : List Exchange) (f : Failure)
    (d' : Desk) : Prop :=
  ∃ taken r given,
    (Task.acquire (.record serial)).Runs (Undisturbed serial)
      { d with ledger := (d.ledger.claim request).2 } [] () taken
    ∧ taken.ledger.find? serial = some r
    ∧ (Task.release (.record serial)).Runs (Undisturbed serial) given [] () d'
    ∧ given.Holds serial .failed (r.startingRuns request ++ createdRuns log)
    ∧ IsStopped f log

/-- Every delivery returns with the check done or failed, and after a failure with a token it has tried to
complete every check run on record, unless one of these updates fails with something else than a client
error. That failure is then the result. -/
theorem handle_returns_or_stops {result : Except Failure State}
    (hclaim : ∀ n, (d.ledger.claim request).1 = some n → n = serial)
    (hrun : Attempt.Runs (Undisturbed serial) (handle s request) d log result d') :
    (∃ state, result = .ok state ∧ (state = .done ∨ state = .failed) ∧ Returns s request d log state d')
      ∨ ∃ f, result = .error f ∧ StopsWith request serial d log f d' := by
  rw [handle, Attempt.runs_lift_bind] at hrun
  obtain ⟨_, claimed, d₁, _, rfl, hclaimed, hrun⟩ := hrun
  obtain ⟨rfl, rfl, rfl⟩ := Task.runs_claim.mp hclaimed
  rw [List.nil_append]
  cases hserial : (d.ledger.claim request).1 with
  | none =>
    rw [hserial] at hrun
    obtain ⟨_, _, _, _, rfl, hnote, h⟩ := Attempt.runs_lift_bind.mp hrun
    obtain ⟨rfl, -⟩ := Task.runs_note.mp hnote
    obtain ⟨rfl, rfl, -⟩ := Attempt.runs_pure.mp h
    refine .inl ⟨.done, rfl, .inl rfl, ?_⟩
    rw [Returns, hserial]
    exact ⟨rfl, rfl⟩
  | some n =>
    obtain rfl := hclaim n hserial
    rw [hserial] at hrun
    obtain ⟨log₁, taken, log₂, given, log₃, rfl, hacquire, hlocked, hrelease⟩ :=
      Attempt.runs_locked.mp hrun
    obtain ⟨rfl, state₁, runs₁, r, hfind, hheld, -, -⟩ :=
      Task.holds_of_acquire (Ledger.find?_claim hserial) hacquire
    obtain ⟨rfl, -⟩ := Task.runs_modify.mp hrelease
    rw [List.nil_append, List.append_nil]
    rcases runs_handleLocked_or_stopped (c := ⟨request, n⟩) hfind hheld hlocked with
      ⟨state, hok, hends⟩ | ⟨f, hf, hstopped, hholds⟩
    · refine .inl ⟨state, hok, ?_, ?_⟩
      · rw [EndsLocked] at hends
        split at hends
        · exact .inl hends.1
        · exact hends.2.imp And.left And.left
      · rw [Returns, hserial]
        exact ⟨taken, r, given, hacquire, hfind, hrelease, hends⟩
    · exact .inr ⟨f, hf, taken, r, given, hacquire, hfind, hrelease, hholds, hstopped⟩

/-! ### A failure while check runs are completed -/

/-- The answer to the list of files is an error of the server, and that to the first update after it is
something unexpected. -/
def stoppedLog : List Exchange :=
  [⟨.filesOf "ghs" ⟨"typst/packages"⟩ 3, .error (.client (.api "Server Error" (some 500) none))⟩,
    ⟨.updateRun "ghs" ⟨"typst/packages"⟩ 1 fatalError (some "neutral"),
      .error (.other "RuntimeError" "boom")⟩]

theorem exists_run_stopped :
    ∃ d', Attempt.Runs (Undisturbed 0) (handle mixedService (mixedRequest 1)) mixedDesk stoppedLog
      (.error (.other "RuntimeError" "boom")) d' :=
  ⟨_, .wait _ (.refl 0 _ _) rfl (.wait _ (.refl 0 _ _) rfl (.done _ _))⟩

/-- The delivery is stopped by the failed update. -/
theorem handle_stops_mixed : ∃ d',
    (∀ n, (mixedDesk.ledger.claim (mixedRequest 1)).1 = some n → n = 0)
      ∧ Attempt.Runs (Undisturbed 0) (handle mixedService (mixedRequest 1)) mixedDesk stoppedLog
        (.error (.other "RuntimeError" "boom")) d'
      ∧ ∃ f, StopsWith (mixedRequest 1) 0 mixedDesk stoppedLog f d' := by
  have hclaim (n : Nat) (h : (mixedDesk.ledger.claim (mixedRequest 1)).1 = some n) : n = 0 :=
    (Option.some.inj h).symm
  obtain ⟨d', hrun⟩ := exists_run_stopped
  rcases handle_returns_or_stops hclaim hrun with ⟨state, hok, -⟩ | ⟨f, -, hstops⟩
  · cases hok
  · exact ⟨d', hclaim, hrun, f, hstops⟩

/-- A delivery can fail with what an update failed with, and then the check run of the second package,
which is on record, gets no update at all. -/
theorem handle_raises_mixed :
    (∃ d', Attempt.Runs (Undisturbed 0) (handle mixedService (mixedRequest 1)) mixedDesk stoppedLog
        (.error (.other "RuntimeError" "boom")) d')
      ∧ mixedRecord.runs.lookup "@preview/b:1.0.0" = some 2 ∧ updatesOf 2 stoppedLog = [] :=
  ⟨exists_run_stopped, rfl, rfl⟩

end TypstLint.Delivery
