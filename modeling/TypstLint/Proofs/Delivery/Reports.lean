import TypstLint.Proofs.Delivery.Steps

set_option autoImplicit false

/-! # Reports to check runs

The work of an attempt ends with the record done, and then a report went to the check run of every
version that the pull request touches (`Reported`); or it ends in an earlier state, and the attempt
failed (`runs_perform`). -/

namespace TypstLint.Delivery

open GitHub (Call ChangedFile CheckRun Failure Output)

variable {s : Service} {c : Case} {d d' : Desk} {log : List Exchange} {state : State}
  {runs : List (String × Int)} {token : String}

/-! ## Reports -/

theorem outputs_ne_nil (r : Report) (spec : Spec) (files : FileSet) (limit : Int) :
    GitHub.outputs r spec files limit ≠ [] := by
  unfold GitHub.outputs
  dsimp only
  split
  · exact List.cons_ne_nil _ _
  · next hempty => rwa [ne_eq, List.map_eq_nil_iff, ← List.isEmpty_iff]

theorem leaves_report (checked : Spec × CheckResult) :
    Attempt.Leaves c.serial Exchange.OnlyReports (report c token checked) :=
  Attempt.leaves_bind (leaves_runOf _) fun _ => Attempt.leaves_bind (leaves_sendAll _ _ _) fun _ =>
    Attempt.leaves_bind (Attempt.leaves_lift (Task.leaves_read _)) fun _ =>
      Attempt.leaves_lift (Task.leaves_note _)

/-- The updates `us` send the report of a result, and complete the check run with it. -/
def SendsReport (run : Int) (spec : Spec) (result : CheckResult) (us : List RunUpdate) : Prop :=
  Completes run (GitHub.outputs result.report spec result.package.files GitHub.maxAnnotations)
    (GitHub.conclusion result.report) us

/-- A report goes to the check run of its version. -/
theorem sendsReport_of_report {checked : Spec × CheckResult} (hd : d.Holds c.serial state runs)
    (h : Attempt.Runs (Undisturbed c.serial) (report c token checked) d log (.ok ()) d') :
    ∃ run, runs.lookup checked.1.render = some run
      ∧ SendsReport run checked.1 checked.2 (updates log) := by
  obtain ⟨spec, result⟩ := checked
  rw [report, Attempt.runs_bind_ok] at h
  obtain ⟨_, run, d₁, _, rfl, hrun, h⟩ := h
  obtain ⟨rfl, rfl, hlookup⟩ := runs_runOf hd hrun
  rw [Attempt.runs_bind_ok] at h
  obtain ⟨_, _, _, _, rfl, hsend, hnote⟩ := h
  obtain rfl := List.eq_nil_iff_forall_not_mem.mpr (leaves_noteState _ hnote).1
  rw [List.nil_append, List.append_nil]
  exact ⟨run, hlookup, completes_of_sendAll (outputs_ne_nil _ _ _ _) hsend⟩

/-- What is sent to the check run of a touched version: the refusal, if the pull request changes more
than packages, and else the report of the version with the contents that were fetched for it. -/
def IsReport (s : Service) (request : CheckRequest) (changed : List ChangedFile) (outside : Bool)
    (log : List Exchange) (spec : Spec) (run : Int) (us : List RunUpdate) : Prop :=
  if outside then Completes run [tooManyThings] "failure" us
  else
    ∃ overlay result, List.Forall₂ (IsContent request log) (overlayOf spec changed) overlay
      ∧ checkRegistryPackage s.registry spec (some overlay) true = .ok result
      ∧ SendsReport run spec result us

theorem IsReport.mono {request : CheckRequest} {changed : List ChangedFile} {outside : Bool}
    {log₁ log₂ : List Exchange} {spec : Spec} {run : Int} {us : List RunUpdate} (hlog : log₁ ⊆ log₂)
    (h : IsReport s request changed outside log₁ spec run us) :
    IsReport s request changed outside log₂ spec run us := by
  cases outside with
  | true => exact h
  | false =>
    obtain ⟨overlay, result, hoverlay, hresult⟩ := h
    exact ⟨overlay, result, hoverlay.imp fun _ _ => IsContent.mono hlog, hresult⟩

/-- The updates `us` go to the check run of a version. -/
def IsSent (s : Service) (request : CheckRequest) (changed : List ChangedFile) (outside : Bool)
    (log : List Exchange) (runs : List (String × Int)) (spec : Spec) (us : List RunUpdate) : Prop :=
  ∃ run, runs.lookup spec.render = some run ∧ IsReport s request changed outside log spec run us

/-- The reports of the touched versions go to their check runs, one behind the other. -/
def SendsReports (s : Service) (request : CheckRequest) (changed : List ChangedFile) (outside : Bool)
    (log : List Exchange) (runs : List (String × Int)) (specs : List Spec) : Prop :=
  ∃ sent, List.Forall₂ (IsSent s request changed outside log runs) specs sent
    ∧ updates log = sent.flatten

/-- Before the reports, updates may not have been sent. -/
theorem SendsReports.behind {request : CheckRequest} {changed : List ChangedFile} {outside : Bool}
    {specs : List Spec} {log₁ log₂ : List Exchange}
    (h : SendsReports s request changed outside log₂ runs specs) (hupdates : updates log₁ = []) :
    SendsReports s request changed outside (log₁ ++ log₂) runs specs := by
  obtain ⟨sent, hsent, hsends⟩ := h
  refine ⟨sent, hsent.imp fun spec us hspec => ?_, by rw [updates_append, hupdates, hsends]; rfl⟩
  obtain ⟨run, hlookup, hreport⟩ := hspec
  exact ⟨run, hlookup, hreport.mono (List.subset_append_right log₁ log₂)⟩

/-- How the work of an attempt ends: the check is done, or something went wrong before. -/
def Ends (serial : Nat) (runs : List (String × Int)) (result : Except Failure Unit) (d : Desk) : Prop :=
  (result = .ok () ∧ d.Holds serial .done runs)
    ∨ ∃ e state, result = .error e ∧ state.isTerminal = false ∧ d.Holds serial state runs

/-- What is sent for the elements of a list, as the last work of an attempt. -/
theorem runs_forM_finish {α : Type} {f : α → Attempt Unit} {R : α → List RunUpdate → Prop} {xs : List α}
    {reason : Option String} {result : Except Failure Unit}
    (hleaves : ∀ a, Attempt.Leaves c.serial Exchange.OnlyReports (f a))
    (hf : ∀ a {d log d'}, d.Holds c.serial state runs →
      Attempt.Runs (Undisturbed c.serial) (f a) d log (.ok ()) d' → R a (updates log))
    (hd : d.Holds c.serial state runs) (hterminal : state.isTerminal = false)
    (hrank : state.rank < State.done.rank)
    (h : Attempt.Runs (Undisturbed c.serial) (do xs.forM f; c.advance .done reason) d log result d') :
    asked log = [] ∧ Ends c.serial runs result d'
      ∧ (result = .ok () → ∃ sent, List.Forall₂ R xs sent ∧ updates log = sent.flatten) := by
  rw [Attempt.runs_bind] at h
  rcases h with ⟨e, rfl, h⟩ | ⟨log₁, _, d₁, log₂, rfl, hforM, h⟩
  · obtain ⟨hreports, hkeep⟩ := Attempt.leaves_forM hleaves xs h
    exact ⟨asked_of_reports hreports, .inr ⟨e, state, rfl, hterminal, hkeep _ _ hd⟩, nofun⟩
  · obtain ⟨hreports, hkeep⟩ := Attempt.leaves_forM hleaves xs hforM
    obtain ⟨rfl, hresult, hd'⟩ := c.runs_advance (hkeep _ _ hd) hterminal hrank h
    rw [List.append_nil]
    exact ⟨asked_of_reports hreports, .inl ⟨hresult, hd'⟩, fun _ =>
      updates_of_forM hleaves hf hd hforM⟩

/-- The refusal goes to the check run of a version, and completes it. -/
theorem completes_of_refusal {spec : Spec} (hd : d.Holds c.serial state runs)
    (h : Attempt.Runs (Undisturbed c.serial)
      (do updateRun c token (← runOf c spec) tooManyThings (some "failure")) d log (.ok ()) d') :
    ∃ run, runs.lookup spec.render = some run
      ∧ Completes run [tooManyThings] "failure" (updates log) := by
  rw [Attempt.runs_bind_ok] at h
  obtain ⟨_, run, _, _, rfl, hrun, hupdate⟩ := h
  obtain ⟨rfl, -, hlookup⟩ := runs_runOf hd hrun
  exact ⟨run, hlookup, [], tooManyThings, rfl, (runs_updateRun hupdate).1⟩

theorem runs_refuse {changed : List ChangedFile} {specs : List Spec} {result : Except Failure Unit}
    (hd : d.Holds c.serial .fetching runs)
    (h : Attempt.Runs (Undisturbed c.serial) (refuse c token specs) d log result d') :
    asked log = [] ∧ Ends c.serial runs result d'
      ∧ (result = .ok () → SendsReports s c.request changed true log runs specs) := by
  have hleaves (spec : Spec) := Attempt.leaves_bind (leaves_runOf (c := c) spec) fun run =>
    leaves_updateRun (c := c) token run tooManyThings (some "failure")
  exact runs_forM_finish (R := IsSent s c.request changed true log runs) hleaves
    (fun _ _ _ _ => completes_of_refusal) hd rfl (by decide) h

/-- Reports about versions with the contents that were fetched for them go to their check runs. -/
theorem isSent_of_reports {changed : List ChangedFile} {specs : List Spec}
    {versions : List (Spec × Overlay)} {results : List (Spec × CheckResult)}
    {sent : List (List RunUpdate)}
    (hversions : List.Forall₂ (IsOverlay c.request changed log) specs versions)
    (hresults : List.Forall₂ (IsResult s) versions results)
    (hsent : List.Forall₂ (fun checked us => ∃ run, runs.lookup checked.1.render = some run
      ∧ SendsReport run checked.1 checked.2 us) results sent) :
    List.Forall₂ (IsSent s c.request changed false log runs) specs sent := by
  induction hversions generalizing results sent with
  | nil =>
    cases hresults
    cases hsent
    exact .nil
  | cons hversion _ ih =>
    cases hresults with
    | cons hresult hresults =>
      cases hsent with
      | cons hreport hsent =>
        obtain ⟨rfl, hoverlay⟩ := hversion
        obtain ⟨heq, hcheck⟩ := hresult
        rw [heq] at hreport
        obtain ⟨run, hlookup, hsends⟩ := hreport
        exact .cons ⟨run, hlookup, _, _, hoverlay, hcheck, hsends⟩ (ih hresults hsent)

theorem runs_checkAll {changed : List ChangedFile} {specs : List Spec} {result : Except Failure Unit}
    (hd : d.Holds c.serial .fetching runs)
    (h : Attempt.Runs (Undisturbed c.serial) (checkAll s c token changed specs) d log result d') :
    asked log = [] ∧ Ends c.serial runs result d'
      ∧ (result = .ok () → SendsReports s c.request changed false log runs specs) := by
  rw [checkAll, Attempt.runs_bind] at h
  rcases h with ⟨e, rfl, h⟩ | ⟨log₁, versions, d₁, _, rfl, hfetch, h⟩
  · obtain ⟨haside, hkeep⟩ := Attempt.leaves_mapM (leaves_fetchOverlay changed) specs h
    exact ⟨asked_of_aside haside, .inr ⟨e, .fetching, rfl, rfl, hkeep _ _ hd⟩, nofun⟩
  obtain ⟨haside₁, hkeep₁⟩ := Attempt.leaves_mapM (leaves_fetchOverlay changed) specs hfetch
  have hversions := forall₂_of_mapM (R := IsOverlay c.request changed) IsOverlay.mono
    (fun _ => isOverlay_of_fetchOverlay) hfetch
  obtain ⟨d₂, hd₂, hanalyze⟩ := c.runs_advance_bind (hkeep₁ _ _ hd) rfl (by decide) h
  rw [Attempt.runs_bind] at hanalyze
  rcases hanalyze with ⟨e, rfl, hcheck⟩ | ⟨log₂, results, d₃, log₃, rfl, hcheck, hreport⟩
  · obtain ⟨haside₂, hkeep₂⟩ := Attempt.leaves_mapM leaves_checkVersion versions hcheck
    have haside := List.forall_mem_append.mpr ⟨haside₁, haside₂⟩
    exact ⟨asked_of_aside haside, .inr ⟨e, .analyzing, rfl, rfl, hkeep₂ _ _ hd₂⟩, nofun⟩
  obtain ⟨haside₂, hkeep₂⟩ := Attempt.leaves_mapM leaves_checkVersion versions hcheck
  have haside := List.forall_mem_append.mpr ⟨haside₁, haside₂⟩
  have hresults := forall₂_of_mapM (R := fun _ => IsResult s) (fun _ h => h)
    (fun _ => isResult_of_checkVersion) hcheck
  -- only the last part sends updates
  obtain ⟨d₄, hd₄, hsend⟩ := c.runs_advance_bind (hkeep₂ _ _ hd₂) rfl (by decide) hreport
  obtain ⟨hasked, hends, hsends⟩ := runs_forM_finish
    (R := fun checked us => ∃ run, runs.lookup checked.1.render = some run
      ∧ SendsReport run checked.1 checked.2 us)
    leaves_report (fun _ _ _ _ => sendsReport_of_report) hd₄ rfl (by decide) hsend
  rw [← List.append_assoc]
  refine ⟨?_, hends, fun hok => ?_⟩
  · rw [asked_append, asked_of_aside haside, hasked, List.append_nil]
  · obtain ⟨sent, hsent, hupdates⟩ := hsends hok
    have hlog : log₁ ⊆ log₁ ++ log₂ ++ log₃ := by
      rw [List.append_assoc]
      exact List.subset_append_left _ _
    refine ⟨sent, isSent_of_reports (hversions.imp fun _ _ => IsOverlay.mono hlog) hresults hsent, ?_⟩
    rw [updates_append, updates_of_aside haside, hupdates]
    rfl

/-! ## The work of an attempt -/

/-- The touched versions have check runs to which their reports went. If the changed files were not
listed, nothing was sent. -/
def Reported (s : Service) (request : CheckRequest) (log : List Exchange) (runs : List (String × Int)) :
    Prop :=
  match changedFiles log with
  | none => updates log = []
  | some changed => ∃ specs outside, touched changed = .ok (specs, outside)
      ∧ SendsReports s request changed outside log runs specs

theorem Reported.behind {request : CheckRequest} {log₁ log₂ : List Exchange}
    (h : Reported s request log₂ runs) (haside : ∀ e ∈ log₁, e.IsAside) :
    Reported s request (log₁ ++ log₂) runs := by
  have hupdates : updates log₁ = [] := updates_of_aside haside
  rw [Reported] at h ⊢
  rw [changedFiles_append, changedFiles_of_aside haside, Option.none_or]
  split at h
  · next hnone =>
    rw [updates_append, hupdates, h]
    rfl
  · next changed hsome =>
    obtain ⟨specs, outside, htouched, hsends⟩ := h
    exact ⟨specs, outside, htouched, hsends.behind hupdates⟩

/-- What is done once it is known which versions are touched. -/
theorem runs_checkTouched {changed : List ChangedFile} {specs : List Spec} {outside : Bool}
    {result : Except Failure Unit} (hnames : (specs.map Spec.render).Nodup)
    (hd : d.Holds c.serial .fetching runs)
    (h : Attempt.Runs (Undisturbed c.serial)
      (if specs.isEmpty then c.finish "no package changed"
      else do
        specs.forM (ensureRun c token)
        if outside then refuse c token specs else checkAll s c token changed specs) d log result d') :
    Ends c.serial (runs ++ createdRuns log) result d'
      ∧ AsksFor (missing runs specs) log (result = .ok ())
      ∧ (result = .ok () →
        SendsReports s c.request changed outside log (runs ++ createdRuns log) specs) := by
  split at h
  · next hempty =>
    obtain rfl := List.isEmpty_iff.mp hempty
    obtain ⟨rfl, hok, hd'⟩ := c.runs_advance hd rfl (by decide) h
    exact ⟨.inl ⟨hok, hd'.append_none rfl⟩, .of_eq rfl, fun _ => ⟨[], .nil, rfl⟩⟩
  · rw [Attempt.runs_bind] at h
    rcases h with ⟨e, rfl, h⟩ | ⟨log₁, _, d₁, log₂, rfl, hensure, h⟩
    · obtain ⟨hd', -, hasks⟩ := runs_ensureRuns hnames hd h
      exact ⟨.inr ⟨e, .fetching, rfl, rfl, hd'⟩, hasks, nofun⟩
    · obtain ⟨hd₁, hupdates, hasks⟩ := runs_ensureRuns hnames hd hensure
      -- the check runs are there now, and no more are asked for
      have hsends : asked log₂ = [] ∧ Ends c.serial (runs ++ createdRuns log₁) result d' ∧
          (result = .ok () →
            SendsReports s c.request changed outside log₂ (runs ++ createdRuns log₁) specs) := by
        cases outside with
        | true => exact runs_refuse hd₁ h
        | false => exact runs_checkAll hd₁ h
      obtain ⟨hasked, hends, hsends⟩ := hsends
      rw [createdRuns_append, createdRuns_of_asked hasked, List.append_nil]
      exact ⟨hends, hasks.before hasked fun _ => rfl, fun hok => (hsends hok).behind hupdates⟩

theorem runs_checkPull {number : Int} {result : Except Failure Unit}
    (hd : d.Holds c.serial .fetching runs)
    (h : Attempt.Runs (Undisturbed c.serial) (checkPull s c token number) d log result d') :
    Ends c.serial (runs ++ createdRuns log) result d'
      ∧ AsksFor (missing runs (touchedIn log)) log (result = .ok ())
      ∧ (result = .ok () → Reported s c.request log (runs ++ createdRuns log)) := by
  rw [checkPull, Attempt.runs_bind] at h
  rcases h with ⟨e, rfl, h⟩ | ⟨_, changed, d₁, log₁, rfl, hlist, h⟩
  · obtain ⟨rfl, hothers⟩ := Attempt.runs_call.mp h
    exact ⟨.inr ⟨e, .fetching, rfl, rfl, (hd.call hothers).append_none rfl⟩, .of_eq rfl, nofun⟩
  obtain ⟨rfl, hothers⟩ := Attempt.runs_call.mp hlist
  rw [Attempt.runs_bind] at h
  rcases h with ⟨e, rfl, h⟩ | ⟨_, ⟨specs, outside⟩, d₂, log₂, rfl, htouched, h⟩
  · obtain ⟨rfl, hspecs, rfl⟩ := Attempt.runs_ofExcept.mp h
    refine ⟨.inr ⟨e, .fetching, rfl, rfl, (hd.call hothers).append_none rfl⟩, ?_, nofun⟩
    obtain ⟨fault, hfault, -⟩ := mapError_eq_error.mp hspecs.symm
    rw [touchedIn_of_error rfl hfault]
    exact .of_eq rfl
  obtain ⟨rfl, hspecs, rfl⟩ := Attempt.runs_ofExcept.mp htouched
  have htouched : touched changed = .ok (specs, outside) := mapError_eq_ok.mp hspecs.symm
  obtain ⟨hends, hasks, hsends⟩ :=
    runs_checkTouched (nodup_names_touched htouched) (hd.call hothers) h
  rw [touchedIn_of_listed rfl htouched]
  exact ⟨hends, hasks.behind rfl, fun hok => ⟨specs, outside, htouched, (hsends hok).behind rfl⟩⟩

theorem leaves_pullNumber :
    Attempt.Leaves c.serial Exchange.IsAside (pullNumber c token) := by
  unfold pullNumber
  split
  · exact Attempt.leaves_pure _
  · exact Attempt.leaves_bind (Attempt.leaves_call fun _ => ⟨rfl, rfl, rfl⟩) fun _ =>
      Attempt.leaves_pure _

/-- The work of an attempt ends with the record done, after every touched version got its report, or it
fails before that. -/
theorem runs_perform {result : Except Failure Unit} (hd : d.Holds c.serial .authenticating runs)
    (h : Attempt.Runs (Undisturbed c.serial) (perform s c token) d log result d') :
    Ends c.serial (runs ++ createdRuns log) result d'
      ∧ AsksFor (missing runs (touchedIn log)) log (result = .ok ())
      ∧ (result = .ok () → Reported s c.request log (runs ++ createdRuns log)) := by
  obtain ⟨d₁, hd₁, hfetch⟩ := c.runs_advance_bind hd rfl (by decide) h
  rw [Attempt.runs_bind] at hfetch
  rcases hfetch with ⟨e, rfl, hnumber⟩ | ⟨log₁, number, d₂, log₂, rfl, hnumber, hcheck⟩
  · obtain ⟨haside, hkeep⟩ := leaves_pullNumber hnumber
    have hasked : asked log = [] := asked_of_aside haside
    have hlisted : changedFiles log = none := changedFiles_of_aside haside
    rw [touchedIn_of_unlisted hlisted]
    exact ⟨.inr ⟨e, .fetching, rfl, rfl, (hkeep _ _ hd₁).append_none (createdRuns_of_asked hasked)⟩,
      .of_eq hasked, nofun⟩
  obtain ⟨haside, hkeep⟩ := leaves_pullNumber hnumber
  have hd₂ := hkeep _ _ hd₁
  have hasked : asked log₁ = [] := asked_of_aside haside
  rw [createdRuns_append, createdRuns_of_asked hasked, List.nil_append,
    touchedIn_behind (changedFiles_of_aside haside)]
  cases number with
  | none =>
    obtain ⟨rfl, hok, hd'⟩ := c.runs_advance hd₂ rfl (by decide) hcheck
    rw [List.append_nil]
    refine ⟨.inl ⟨hok, hd'.append_none rfl⟩, .of_eq hasked, fun _ => ?_⟩
    rw [Reported, changedFiles_of_aside haside]
    exact updates_of_aside haside
  | some number =>
    obtain ⟨hends, hasks, hreported⟩ := runs_checkPull hd₂ hcheck
    exact ⟨hends, hasks.behind hasked, fun hok => (hreported hok).behind haside⟩

end TypstLint.Delivery
