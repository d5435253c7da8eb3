import TypstLint.Delivery.Handle
import TypstLint.Proofs.Delivery.Runs
import TypstLint.Proofs.Delivery.Touched

set_option autoImplicit false

/-! # What a run asks for

The calls of a run and their answers tell which check runs it created, which updates of check runs it
sent, and which files the pull request changes.

The versions that a pull request touches and that have no check run yet are those for which an attempt
asks for one, each of them once, in the order of the versions (`AsksFor`). -/

namespace TypstLint.Delivery

open GitHub (Call ChangedFile CheckRun Failure Output)

/-- An update of a check run, which completes it if there is a conclusion. -/
structure RunUpdate where
  run : Int
  output : Output
  conclusion : Option String
  deriving DecidableEq, Repr

namespace Exchange

/-- The check run that was created, under the name of its package. -/
def created? : Exchange → Option (String × Int)
  | ⟨.createRun _ _ name _, .ok run⟩ => some (name, CheckRun.id run)
  | _ => none

/-- The package that a check run was asked for, whatever the answer was. -/
def asks? : Exchange → Option String
  | ⟨.createRun _ _ name _, _⟩ => some name
  | _ => none

/-- The update that was sent, whatever the answer was. -/
def update? : Exchange → Option RunUpdate
  | ⟨.updateRun _ _ run output conclusion, _⟩ => some ⟨run, output, conclusion⟩
  | _ => none

/-- The changed files that were listed. -/
def listed? : Exchange → Option (List ChangedFile)
  | ⟨.filesOf .., .ok files⟩ => some files
  | _ => none

/-- Whether the call did not fail. -/
def Succeeds (e : Exchange) : Prop := ∃ a, e.answer = .ok a

/-- Whether there is a token: every call but the exchange for a token is made with one. -/
def HasToken : Exchange → Prop
  | ⟨.exchange .., .error _⟩ => False
  | _ => True

/-- Whether an update that fails does so in an expected way. -/
def UpdateIsExpected : Exchange → Prop
  | ⟨.updateRun .., .error f⟩ => ∃ e, f = .client e
  | _ => True

/-- Whether the update that completes a check run after a failure fails itself, and not in an expected
way. -/
def Stops (f : Failure) (e : Exchange) : Prop :=
  (∃ token repository run, e = ⟨.updateRun token repository run fatalError (some "neutral"), .error f⟩)
    ∧ ∀ e, f ≠ .client e

/-- Whether a call neither asks for a check run nor updates one nor lists changed files. -/
def IsAside (e : Exchange) : Prop := e.asks? = none ∧ e.update? = none ∧ e.listed? = none

/-- Whether a call does nothing but report: it neither asks for a check run nor lists changed files. -/
def OnlyReports (e : Exchange) : Prop := e.asks? = none ∧ e.listed? = none

theorem IsAside.onlyReports {e : Exchange} (h : e.IsAside) : e.OnlyReports := ⟨h.1, h.2.2⟩

/-- Only check runs that were asked for are created. -/
theorem asks?_of_created? {e : Exchange} {entry : String × Int} (h : e.created? = some entry) :
    e.asks? = some entry.1 := by
  unfold created? at h
  split at h
  · cases h
    rfl
  · cases h

/-- If the call did not fail, the check run that was asked for is created. -/
theorem exists_created?_of_asks? {e : Exchange} {name : String} (hsucceeds : e.Succeeds)
    (h : e.asks? = some name) : ∃ n, e.created? = some (name, n) := by
  obtain ⟨c, answer⟩ := e
  obtain ⟨a, rfl⟩ : ∃ a, answer = .ok a := hsucceeds
  cases c with
  | createRun _ _ asked _ =>
    obtain rfl := Option.some.inj h
    exact ⟨a.id, rfl⟩
  | _ => cases h

theorem Stops.unexpected {f : Failure} {e : Exchange} (h : e.Stops f) : ¬ e.UpdateIsExpected := by
  obtain ⟨⟨token, repository, run, rfl⟩, hclient⟩ := h
  rintro ⟨e, rfl⟩
  exact hclient e rfl

end Exchange

/-- Whether the last thing that was asked for is an update of a check run after a failure, and failed in
turn with `f`. -/
def IsStopped (f : Failure) (log : List Exchange) : Prop :=
  ∃ before stop, log = before ++ [stop] ∧ stop.Stops f

/-- The check runs that were created, under the names of their packages. -/
def createdRuns (log : List Exchange) : List (String × Int) := log.filterMap Exchange.created?

/-- The packages that check runs were asked for. -/
def asked (log : List Exchange) : List String := log.filterMap Exchange.asks?

/-- The updates that were sent. -/
def updates (log : List Exchange) : List RunUpdate := log.filterMap Exchange.update?

/-- The updates that were sent to a check run. -/
def updatesOf (run : Int) (log : List Exchange) : List RunUpdate :=
  (updates log).filter (·.run == run)

/-- The files that the pull request changes. -/
def changedFiles (log : List Exchange) : Option (List ChangedFile) := log.findSome? Exchange.listed?

variable {log log₁ log₂ : List Exchange}

@[simp] theorem createdRuns_append :
    createdRuns (log₁ ++ log₂) = createdRuns log₁ ++ createdRuns log₂ :=
  List.filterMap_append

@[simp] theorem asked_append : asked (log₁ ++ log₂) = asked log₁ ++ asked log₂ :=
  List.filterMap_append

@[simp] theorem updates_append : updates (log₁ ++ log₂) = updates log₁ ++ updates log₂ :=
  List.filterMap_append

@[simp] theorem updatesOf_append {run : Int} :
    updatesOf run (log₁ ++ log₂) = updatesOf run log₁ ++ updatesOf run log₂ := by
  rw [updatesOf, updates_append, List.filter_append]
  rfl

@[simp] theorem changedFiles_append :
    changedFiles (log₁ ++ log₂) = (changedFiles log₁).or (changedFiles log₂) :=
  List.findSome?_append

theorem IsStopped.behind {f : Failure} (log₁ : List Exchange) (h : IsStopped f log₂) :
    IsStopped f (log₁ ++ log₂) := by
  obtain ⟨before, stop, rfl, hstop⟩ := h
  exact ⟨log₁ ++ before, stop, (List.append_assoc ..).symm, hstop⟩

theorem IsStopped.unexpected {f : Failure} (h : IsStopped f log) :
    ¬ ∀ e ∈ log, e.UpdateIsExpected := by
  obtain ⟨before, stop, rfl, hstop⟩ := h
  exact fun hexpected => hstop.unexpected (hexpected stop (List.mem_append_right _ List.mem_cons_self))

theorem asked_of_reports (hreports : ∀ e ∈ log, e.OnlyReports) : asked log = [] :=
  List.filterMap_eq_nil_iff.mpr fun e he => (hreports e he).1

theorem changedFiles_of_reports (hreports : ∀ e ∈ log, e.OnlyReports) : changedFiles log = none :=
  List.findSome?_eq_none_iff.mpr fun e he => (hreports e he).2

theorem asked_of_aside (haside : ∀ e ∈ log, e.IsAside) : asked log = [] :=
  asked_of_reports fun e he => (haside e he).onlyReports

theorem changedFiles_of_aside (haside : ∀ e ∈ log, e.IsAside) : changedFiles log = none :=
  changedFiles_of_reports fun e he => (haside e he).onlyReports

theorem updates_of_aside (haside : ∀ e ∈ log, e.IsAside) : updates log = [] :=
  List.filterMap_eq_nil_iff.mpr fun e he => (haside e he).2.1

/-- Check runs are created for packages that they were asked for. -/
theorem mem_asked_of_mem_createdRuns {entry : String × Int} (h : entry ∈ createdRuns log) :
    entry.1 ∈ asked log := by
  obtain ⟨e, he, hcreated⟩ := List.mem_filterMap.mp h
  exact List.mem_filterMap.mpr ⟨e, he, Exchange.asks?_of_created? hcreated⟩

/-- If no call fails, what is asked for is created. -/
theorem exists_mem_createdRuns_of_mem_asked {name : String} (hsucceeds : ∀ e ∈ log, e.Succeeds)
    (h : name ∈ asked log) : ∃ n, (name, n) ∈ createdRuns log := by
  obtain ⟨e, he, hasks⟩ := List.mem_filterMap.mp h
  obtain ⟨n, hcreated⟩ := Exchange.exists_created?_of_asks? (hsucceeds e he) hasks
  exact ⟨n, List.mem_filterMap.mpr ⟨e, he, hcreated⟩⟩

theorem createdRuns_of_asked (h : asked log = []) : createdRuns log = [] :=
  List.eq_nil_iff_forall_not_mem.mpr fun _ hentry =>
    List.ne_nil_of_mem (mem_asked_of_mem_createdRuns hentry) h

/-! ## Versions without a check run -/

variable {runs created : List (String × Int)} {spec : Spec} {specs : List Spec} {name : String}
  {names : List String} {whole whole' : Prop}

/-- The texts of the versions that have no check run. -/
def missing (runs : List (String × Int)) (specs : List Spec) : List String :=
  (specs.map Spec.render).filter fun name => (runs.lookup name).isNone

theorem mem_missing_iff :
    name ∈ missing runs specs ↔ name ∈ specs.map Spec.render ∧ runs.lookup name = none := by
  rw [missing, List.mem_filter, Option.isNone_iff_eq_none]

theorem missing_cons :
    missing runs (spec :: specs) = missing runs [spec] ++ missing runs specs := by
  rw [missing, missing, missing, ← List.filter_append]
  rfl

theorem missing_singleton_of_isNone (h : (runs.lookup spec.render).isNone = true) :
    missing runs [spec] = [spec.render] :=
  List.filter_cons_of_pos h

theorem missing_singleton_of_not_isNone (h : ¬ (runs.lookup spec.render).isNone = true) :
    missing runs [spec] = [] :=
  List.filter_cons_of_neg h

/-- Check runs of other versions make no difference. -/
theorem missing_append (h : ∀ entry ∈ created, entry.1 ∉ specs.map Spec.render) :
    missing (runs ++ created) specs = missing runs specs := by
  refine List.filter_congr fun name hname => ?_
  have hnone : created.lookup name = none := by
    rw [List.lookup_eq_none_iff]
    intro entry hentry
    rw [bne_iff_ne]
    rintro rfl
    exact h entry hentry hname
  rw [List.lookup_append, hnone, Option.or_none]

theorem nodup_missing (h : (specs.map Spec.render).Nodup) : (missing runs specs).Nodup :=
  h.sublist List.filter_sublist

/-! ## Touched versions -/

/-- The versions that the listed files touch. -/
def touchedIn (log : List Exchange) : List Spec :=
  match (changedFiles log).map touched with
  | some (.ok (specs, _)) => specs
  | _ => []

theorem touchedIn_of_listed {files : List ChangedFile} {outside : Bool}
    (hfiles : changedFiles log = some files) (htouched : touched files = .ok (specs, outside)) :
    touchedIn log = specs := by
  rw [touchedIn, hfiles, Option.map_some, htouched]

theorem touchedIn_of_error {files : List ChangedFile} {e : Fault}
    (hfiles : changedFiles log = some files) (htouched : touched files = .error e) :
    touchedIn log = [] := by
  rw [touchedIn, hfiles, Option.map_some, htouched]

theorem touchedIn_of_unlisted (h : changedFiles log = none) : touchedIn log = [] := by
  rw [touchedIn, h, Option.map_none]

/-- What comes before the list of files does not change what is touched. -/
theorem touchedIn_behind (h : changedFiles log₁ = none) :
    touchedIn (log₁ ++ log₂) = touchedIn log₂ := by
  rw [touchedIn, changedFiles_append, h, Option.none_or]
  rfl

theorem touchedIn_before (h : changedFiles log₂ = none) :
    touchedIn (log₁ ++ log₂) = touchedIn log₁ := by
  rw [touchedIn, changedFiles_append, h, Option.or_none]
  rfl

theorem nodup_names_touchedIn (log : List Exchange) : ((touchedIn log).map Spec.render).Nodup := by
  rw [touchedIn]
  split
  · next htouched =>
    obtain ⟨files, -, htouched⟩ := Option.map_eq_some_iff.mp htouched
    exact nodup_names_touched htouched
  · exact List.nodup_nil

/-! ## Asking for check runs -/

/-- Check runs are asked for in the order of `names`, and for all of them if no call fails, or if it is
known otherwise that the whole was gone through. -/
structure AsksFor (names : List String) (log : List Exchange) (whole : Prop) : Prop where
  inOrder : asked log <+: names
  complete : whole ∨ (∀ e ∈ log, e.Succeeds) → asked log = names

namespace AsksFor

theorem of_eq (h : asked log = names) : AsksFor names log whole :=
  ⟨h ▸ List.prefix_rfl, fun _ => h⟩

/-- All of the first names were asked for before. -/
theorem after {first : List String} (h : AsksFor names log₂ whole) (hfirst : asked log₁ = first) :
    AsksFor (first ++ names) (log₁ ++ log₂) whole := by
  have hasked : asked (log₁ ++ log₂) = first ++ asked log₂ := by
    rw [asked_append, hfirst]
  refine ⟨hasked ▸ (List.prefix_append_right_inj first).mpr h.inOrder, fun hwhole => ?_⟩
  rw [hasked, h.complete (hwhole.imp_right fun hsucceeds e he => ?_)]
  exact hsucceeds e (List.mem_append_right log₁ he)

/-- Nothing was asked for before. -/
theorem behind (h : AsksFor names log₂ whole) (hnone : asked log₁ = []) :
    AsksFor names (log₁ ++ log₂) whole :=
  h.after hnone

/-- Nothing is asked for afterwards. -/
theorem before (h : AsksFor names log₁ whole) (hnone : asked log₂ = []) (himp : whole' → whole) :
    AsksFor names (log₁ ++ log₂) whole' := by
  have hasked : asked (log₁ ++ log₂) = asked log₁ := by
    rw [asked_append, hnone, List.append_nil]
  refine ⟨hasked ▸ h.inOrder, fun hwhole => hasked.trans (h.complete (hwhole.imp himp ?_))⟩
  exact fun hsucceeds e he => hsucceeds e (List.mem_append_left log₂ he)

theorem mono (h : AsksFor names log whole) (himp : whole' → whole) : AsksFor names log whole' :=
  ⟨h.inOrder, fun hwhole => h.complete (hwhole.imp_left himp)⟩

theorem subset (h : AsksFor names log whole) (hname : name ∈ asked log) : name ∈ names :=
  h.inOrder.subset hname

end AsksFor

end TypstLint.Delivery
