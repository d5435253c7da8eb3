import Mathlib.Data.List.Forall2
import TypstLint.Proofs.Delivery.Exchanges
import TypstLint.Proofs.Delivery.Held
import TypstLint.Proofs.Except

set_option autoImplicit false

/-! # The steps of an attempt

What each step of an attempt asks for, and how it leaves the record, while the lock of the record is
held. Each step has one lemma about all its runs (`runs_ensureRun`, `runs_updateRun`), and the later
modules use these without opening the steps again. What comes of the changed files is told by `IsOverlay`
and `IsResult`. -/

namespace TypstLint.Delivery

open GitHub (Call ChangedFile CheckRun Failure Output)

variable {s : Service} {c : Case} {d d' : Desk} {log : List Exchange} {state : State}
  {runs : List (String × Int)} {token : String}

/-! ## Changes of the record -/

theorem Case.runs_advance {new : State} {reason : Option String} {result : Except Failure Unit}
    {others : Wait → Desk → Desk → Prop} (hd : d.Holds c.serial state runs)
    (hterminal : state.isTerminal = false) (hrank : state.rank < new.rank)
    (h : Attempt.Runs others (c.advance new reason) d log result d') :
    log = [] ∧ result = .ok () ∧ d'.Holds c.serial new runs := by
  obtain ⟨r, hfind, hheld, rfl, rfl⟩ := hd
  have hadvance : r.advance new reason = .ok { r with state := new, reason } := by
    rw [Record.advance, if_neg (Bool.not_eq_true _ ▸ hterminal), if_neg (Nat.not_le.mpr hrank)]
  rw [advance, Attempt.runs_lift_bind] at h
  obtain ⟨_, r, d, _, rfl, hrecord, h⟩ := h
  obtain ⟨rfl, rfl, rfl⟩ := (Case.runs_record hfind).mp hrecord
  rw [hadvance] at h
  dsimp only at h
  rw [Attempt.runs_lift_bind] at h
  obtain ⟨_, _, _, _, rfl, hupdate, h⟩ := h
  obtain ⟨_, rfl, hnote⟩ := Attempt.runs_lift.mp h
  obtain ⟨rfl, rfl⟩ := Task.runs_note.mp hnote
  have hserial : r.serial = c.serial := Ledger.serial_of_find? hfind
  obtain ⟨rfl, hd⟩ := Case.holds_of_update hupdate hfind (fun _ _ => hserial) hheld
  exact ⟨rfl, rfl, hd⟩

theorem Case.runs_advance_bind {new : State} {reason : Option String} {f : Unit → Attempt Unit}
    {result : Except Failure Unit} {others : Wait → Desk → Desk → Prop}
    (hd : d.Holds c.serial state runs) (hterminal : state.isTerminal = false)
    (hrank : state.rank < new.rank)
    (h : Attempt.Runs others (c.advance new reason >>= f) d log result d') :
    ∃ d₁, d₁.Holds c.serial new runs ∧ Attempt.Runs others (f ()) d₁ log result d' := by
  rw [Attempt.runs_bind] at h
  rcases h with ⟨e, -, h⟩ | ⟨_, _, d₁, _, rfl, hadvance, h⟩
  · obtain ⟨-, hok, -⟩ := c.runs_advance hd hterminal hrank h
    cases hok
  · obtain ⟨rfl, -, hd₁⟩ := c.runs_advance hd hterminal hrank hadvance
    exact ⟨d₁, hd₁, h⟩

/-! ## Creating check runs -/

/-- As long as no check run is created, those on record are still all there are. -/
theorem Desk.Holds.append_none {serial : Nat} (h : d.Holds serial state runs)
    (hcreated : createdRuns log = []) : d.Holds serial state (runs ++ createdRuns log) := by
  rwa [hcreated, List.append_nil]

theorem set_of_lookup {α β : Type} [BEq α] [LawfulBEq α] {xs : List (α × β)} {a : α} {b : β}
    (h : xs.lookup a = none) :
    Assoc.set xs a b = xs ++ [(a, b)] := by
  rw [Assoc.set, if_neg]
  rw [List.any_eq_true]
  rintro ⟨x, hx, hname⟩
  rw [List.lookup_eq_none_iff] at h
  have := h x hx
  simp [beq_iff_eq.mp hname] at this

/-- A notice that tells the state of the record. -/
theorem leaves_noteState (n : Record → Notice) :
    Attempt.Leaves c.serial (fun _ => False) (do Task.note (n (← c.record)) : Attempt Unit) :=
  Attempt.leaves_bind (Attempt.leaves_lift (Task.leaves_read _)) fun _ =>
    Attempt.leaves_lift (Task.leaves_note _)

/-- A version gets a check run unless it has one, or the call fails. -/
theorem runs_ensureRun {spec : Spec} {result : Except Failure Unit} (hd : d.Holds c.serial state runs)
    (h : Attempt.Runs (Undisturbed c.serial) (ensureRun c token spec) d log result d') :
    d'.Holds c.serial state (runs ++ createdRuns log) ∧ updates log = []
      ∧ AsksFor (missing runs [spec]) log (result = .ok ())
      ∧ ((∀ e ∈ log, e.Succeeds) → result = .ok ()) := by
  obtain ⟨r, hfind, hheld, rfl, rfl⟩ := id hd
  rw [ensureRun, Attempt.runs_lift_bind] at h
  obtain ⟨_, r, d, _, rfl, hrecord, h⟩ := h
  obtain ⟨rfl, rfl, rfl⟩ := (Case.runs_record hfind).mp hrecord
  split at h
  · next hnone =>
    rw [Attempt.runs_bind] at h
    rcases h with ⟨e, rfl, h⟩ | ⟨_, run, d₁, _, rfl, hcall, h⟩
    · obtain ⟨rfl, hothers⟩ := Attempt.runs_call.mp h
      refine ⟨(hd.call hothers).append_none rfl, rfl, ?_, fun hsucceeds => ?_⟩
      · exact .of_eq (missing_singleton_of_isNone hnone).symm
      · obtain ⟨_, hanswer⟩ := hsucceeds _ List.mem_cons_self
        cases hanswer
    · obtain ⟨rfl, hothers⟩ := Attempt.runs_call.mp hcall
      -- what was read before the call is still true behind it, as the lock is held
      obtain ⟨r₁, hfind₁, hheld₁, hstate₁, hruns₁⟩ := hd.call hothers
      rw [Attempt.runs_lift_bind] at h
      obtain ⟨_, _, d₂, _, rfl, hupdate, hnote⟩ := h
      obtain ⟨rfl, hd₂⟩ := Case.holds_of_update hupdate hfind₁ (fun _ h => h) hheld₁
      obtain ⟨hquiet, hkeep⟩ := leaves_noteState _ hnote
      obtain rfl := List.eq_nil_iff_forall_not_mem.mpr hquiet
      have hruns : (r₁.setRun spec.render run.id).runs = r.runs ++ [(spec.render, run.id)] := by
        rw [Record.setRun, hruns₁, set_of_lookup (Option.isNone_iff_eq_none.mp hnone)]
      obtain ⟨_, hresult, -⟩ := Attempt.runs_lift.mp hnote
      refine ⟨?_, rfl, .of_eq (missing_singleton_of_isNone hnone).symm, fun _ => hresult⟩
      show d'.Holds c.serial r.state (r.runs ++ [(spec.render, run.id)])
      rw [← hruns, ← hstate₁]
      exact hkeep _ _ hd₂
  · next hsome =>
    obtain ⟨rfl, rfl, rfl⟩ := Attempt.runs_pure.mp h
    refine ⟨hd.append_none rfl, rfl, ?_, fun _ => rfl⟩
    exact .of_eq (missing_singleton_of_not_isNone hsome).symm

/-- Check runs are created for the versions that have none. -/
theorem runs_ensureRuns {specs : List Spec} {result : Except Failure Unit}
    (hnames : (specs.map Spec.render).Nodup) (hd : d.Holds c.serial state runs)
    (h : Attempt.Runs (Undisturbed c.serial) (specs.forM (ensureRun c token)) d log result d') :
    d'.Holds c.serial state (runs ++ createdRuns log) ∧ updates log = []
      ∧ AsksFor (missing runs specs) log (result = .ok ()) := by
  induction specs generalizing d log runs with
  | nil =>
    obtain ⟨rfl, -, rfl⟩ := Attempt.runs_pure.mp h
    exact ⟨hd.append_none rfl, rfl, .of_eq rfl⟩
  | cons spec specs ih =>
    obtain ⟨hnotMem, hnames⟩ := List.nodup_cons.mp hnames
    rw [missing_cons]
    rw [List.forM, Attempt.runs_bind] at h
    rcases h with ⟨e, rfl, h⟩ | ⟨log₁, _, d₁, log₂, rfl, hensure, h⟩
    · obtain ⟨hd', hupdates, hasks, hok⟩ := runs_ensureRun hd h
      refine ⟨hd', hupdates, hasks.inOrder.trans (List.prefix_append _ _), ?_⟩
      rintro (hresult | hsucceeds)
      · cases hresult
      · cases hok hsucceeds
    · obtain ⟨hd₁, hupdates₁, hasks₁, -⟩ := runs_ensureRun hd hensure
      obtain ⟨hd', hupdates₂, hasks₂⟩ := ih hnames hd₁ h
      have hasked₁ : asked log₁ = missing runs [spec] := hasks₁.complete (.inl rfl)
      -- what was created for the first version makes no difference to the others
      have hothers : missing (runs ++ createdRuns log₁) specs = missing runs specs := by
        refine missing_append fun entry hentry hmem => hnotMem ?_
        have hname := mem_asked_of_mem_createdRuns hentry
        rw [hasked₁] at hname
        obtain ⟨hname, -⟩ := mem_missing_iff.mp hname
        rwa [← List.mem_singleton.mp hname]
      rw [hothers] at hasks₂
      refine ⟨?_, ?_, hasks₂.after hasked₁⟩
      · rwa [createdRuns_append, ← List.append_assoc]
      · rw [updates_append, hupdates₁, hupdates₂, List.append_nil]

/-! ## Updates -/

theorem leaves_updateRun (token : String) (run : Int) (output : Output) (conclusion : Option String) :
    Attempt.Leaves c.serial Exchange.OnlyReports (updateRun c token run output conclusion) :=
  Attempt.leaves_bind (Attempt.leaves_call fun _ => ⟨rfl, rfl⟩) fun _ => Attempt.leaves_pure _

/-- An update is sent whatever the answer is, and fails as the answer does. -/
theorem runs_updateRun {run : Int} {output : Output} {conclusion : Option String}
    {result : Except Failure Unit} {others : Wait → Desk → Desk → Prop}
    (h : Attempt.Runs others (updateRun c token run output conclusion) d log result d') :
    updates log = [⟨run, output, conclusion⟩] ∧ ∀ f, result = .error f →
      log = [⟨.updateRun token c.request.repository run output conclusion, .error f⟩] := by
  rw [updateRun, Attempt.runs_bind] at h
  rcases h with ⟨f, rfl, h⟩ | ⟨_, _, _, _, rfl, hcall, h⟩
  · obtain ⟨rfl, -⟩ := Attempt.runs_call.mp h
    refine ⟨rfl, fun f' hf => ?_⟩
    obtain rfl := Except.error.inj hf
    rfl
  · obtain ⟨rfl, -⟩ := Attempt.runs_call.mp hcall
    obtain ⟨rfl, rfl, -⟩ := Attempt.runs_pure.mp h
    exact ⟨rfl, nofun⟩

theorem leaves_runOf (spec : Spec) : Attempt.Leaves c.serial Exchange.OnlyReports (runOf c spec) := by
  refine Attempt.leaves_bind (Attempt.leaves_lift (Task.leaves_read _)) fun r => ?_
  split
  · exact Attempt.leaves_pure _
  · exact Attempt.leaves_throw _

theorem runs_runOf {spec : Spec} {run : Int} {others : Wait → Desk → Desk → Prop}
    (hd : d.Holds c.serial state runs) (h : Attempt.Runs others (runOf c spec) d log (.ok run) d') :
    log = [] ∧ d' = d ∧ runs.lookup spec.render = some run := by
  obtain ⟨r, hfind, -, -, rfl⟩ := hd
  rw [runOf, Attempt.runs_lift_bind] at h
  obtain ⟨_, r, d, _, rfl, hrecord, h⟩ := h
  obtain ⟨rfl, rfl, rfl⟩ := (Case.runs_record hfind).mp hrecord
  split at h
  · next run' hlookup =>
    obtain ⟨rfl, hrun, rfl⟩ := Attempt.runs_pure.mp h
    obtain rfl := Except.ok.inj hrun
    exact ⟨rfl, rfl, hlookup⟩
  · obtain ⟨-, hrun, -⟩ := Attempt.runs_throw.mp h
    cases hrun

/-- A run is completed by the last one of the updates with `outputs`, and the others leave it in
progress. -/
def Completes (run : Int) (outputs : List Output) (conclusion : String) (us : List RunUpdate) : Prop :=
  ∃ progress last, outputs = progress ++ [last]
    ∧ us = (progress.map fun output => ⟨run, output, none⟩) ++ [⟨run, last, some conclusion⟩]

theorem leaves_sendAll (run : Int) (conclusion : String) (outputs : List Output) :
    Attempt.Leaves c.serial Exchange.OnlyReports (sendAll c token run conclusion outputs) := by
  fun_induction sendAll with
  | case1 => exact Attempt.leaves_pure _
  | case2 => exact leaves_updateRun _ _ _ _
  | case3 output rest _ ih => exact Attempt.leaves_bind (leaves_updateRun _ _ _ _) fun _ => ih

theorem completes_of_sendAll {run : Int} {conclusion : String} {outputs : List Output}
    {others : Wait → Desk → Desk → Prop} (hne : outputs ≠ [])
    (h : Attempt.Runs others (sendAll c token run conclusion outputs) d log (.ok ()) d') :
    Completes run outputs conclusion (updates log) := by
  fun_induction sendAll generalizing d log with
  | case1 => exact absurd rfl hne
  | case2 output => exact ⟨[], output, rfl, (runs_updateRun h).1⟩
  | case3 output rest hrest ih =>
    rw [Attempt.runs_bind_ok] at h
    obtain ⟨_, _, _, _, rfl, hupdate, h⟩ := h
    obtain ⟨progress, last, houtputs, hupdates⟩ := ih hrest h
    refine ⟨output :: progress, last, by rw [houtputs, List.cons_append], ?_⟩
    rw [updates_append, (runs_updateRun hupdate).1, hupdates]
    rfl

/-! ## Attempts for the elements of a list -/

/-- What is known of the updates for each element of a list holds of them all, one behind the other. -/
theorem updates_of_forM {α : Type} {f : α → Attempt Unit} {p : Exchange → Prop}
    {R : α → List RunUpdate → Prop} {xs : List α} (hleaves : ∀ a, Attempt.Leaves c.serial p (f a))
    (hf : ∀ a {d log d'}, d.Holds c.serial state runs →
      Attempt.Runs (Undisturbed c.serial) (f a) d log (.ok ()) d' → R a (updates log))
    (hd : d.Holds c.serial state runs)
    (h : Attempt.Runs (Undisturbed c.serial) (xs.forM f) d log (.ok ()) d') :
    ∃ sent, List.Forall₂ R xs sent ∧ updates log = sent.flatten := by
  induction xs generalizing d log with
  | nil =>
    obtain ⟨rfl, -, -⟩ := Attempt.runs_pure.mp h
    exact ⟨[], .nil, rfl⟩
  | cons x xs ih =>
    rw [List.forM, Attempt.runs_bind_ok] at h
    obtain ⟨_, _, _, _, rfl, hx, h⟩ := h
    obtain ⟨sent, hsent, hupdates⟩ := ih ((hleaves x hx).2 _ _ hd) h
    exact ⟨_ :: sent, .cons (hf x hd hx) hsent, by rw [updates_append, hupdates, List.flatten_cons]⟩

/-- What is known of each value, and stays true when more is asked, holds of all values. -/
theorem forall₂_of_mapM {α β : Type} {f : α → Attempt β} {R : List Exchange → α → β → Prop}
    {others : Wait → Desk → Desk → Prop} {xs : List α} {ys : List β}
    (hmono : ∀ {log₁ log₂ a b}, log₁ ⊆ log₂ → R log₁ a b → R log₂ a b)
    (hf : ∀ a {d log b d'}, Attempt.Runs others (f a) d log (.ok b) d' → R log a b)
    (h : Attempt.Runs others (xs.mapM f) d log (.ok ys) d') : List.Forall₂ (R log) xs ys := by
  induction xs generalizing d log ys d' with
  | nil =>
    rw [List.mapM_nil] at h
    obtain ⟨-, hys, -⟩ := Attempt.runs_pure.mp h
    obtain rfl := Except.ok.inj hys
    exact .nil
  | cons x xs ih =>
    rw [List.mapM_cons, Attempt.runs_bind_ok] at h
    obtain ⟨log₁, y, _, _, rfl, hx, h⟩ := h
    rw [Attempt.runs_bind_ok] at h
    obtain ⟨log₂, zs, _, _, rfl, hxs, h⟩ := h
    obtain ⟨rfl, hys, -⟩ := Attempt.runs_pure.mp h
    obtain rfl := Except.ok.inj hys
    rw [List.append_nil]
    refine .cons (hmono (List.subset_append_left log₁ log₂) (hf x hx)) ((ih hxs).imp fun _ _ => ?_)
    exact hmono (List.subset_append_right log₁ log₂)

/-! ## Contents -/

/-- What is put into an overlay under the name of a changed file is the content that was fetched for
it. -/
def IsContent (request : CheckRequest) (log : List Exchange) :
    String × Option String → String × Option ByteArray → Prop
  | (path, none), entry => entry = (path, none)
  | (path, some remote), entry => ∃ token content, entry = (path, some content)
      ∧ ⟨.contentOf token request.repository remote request.headSha, .ok content⟩ ∈ log

theorem IsContent.mono {request : CheckRequest} {log₁ log₂ : List Exchange}
    {named : String × Option String} {entry : String × Option ByteArray} (hlog : log₁ ⊆ log₂)
    (h : IsContent request log₁ named entry) : IsContent request log₂ named entry := by
  obtain ⟨path, _ | remote⟩ := named
  · exact h
  · obtain ⟨token, content, hentry, hmem⟩ := h
    exact ⟨token, content, hentry, hlog hmem⟩

theorem leaves_fetchContent (named : String × Option String) :
    Attempt.Leaves c.serial Exchange.IsAside (fetchContent c token named) := by
  obtain ⟨path, _ | remote⟩ := named
  · exact Attempt.leaves_pure _
  · exact Attempt.leaves_bind (Attempt.leaves_call fun _ => ⟨rfl, rfl, rfl⟩) fun _ =>
      Attempt.leaves_pure _

theorem isContent_of_fetchContent {named : String × Option String} {entry : String × Option ByteArray}
    {others : Wait → Desk → Desk → Prop}
    (h : Attempt.Runs others (fetchContent c token named) d log (.ok entry) d') :
    IsContent c.request log named entry := by
  obtain ⟨path, _ | remote⟩ := named
  · obtain ⟨-, hentry, -⟩ := Attempt.runs_pure.mp h
    exact Except.ok.inj hentry
  · rw [fetchContent, Attempt.runs_bind_ok] at h
    obtain ⟨_, content, _, _, rfl, hcall, h⟩ := h
    obtain ⟨rfl, -⟩ := Attempt.runs_call.mp hcall
    obtain ⟨rfl, hentry, -⟩ := Attempt.runs_pure.mp h
    exact ⟨token, content, Except.ok.inj hentry, List.mem_cons_self⟩

theorem leaves_fetchOverlay (changed : List ChangedFile) (spec : Spec) :
    Attempt.Leaves c.serial Exchange.IsAside (fetchOverlay c token changed spec) :=
  Attempt.leaves_bind (Attempt.leaves_mapM leaves_fetchContent _) fun _ => Attempt.leaves_pure _

/-- A version goes with an overlay of the contents that were fetched for it. -/
def IsOverlay (request : CheckRequest) (changed : List ChangedFile) (log : List Exchange) (spec : Spec)
    (version : Spec × Overlay) : Prop :=
  version.1 = spec ∧ List.Forall₂ (IsContent request log) (overlayOf spec changed) version.2

theorem IsOverlay.mono {request : CheckRequest} {changed : List ChangedFile}
    {log₁ log₂ : List Exchange} {spec : Spec} {version : Spec × Overlay} (hlog : log₁ ⊆ log₂)
    (h : IsOverlay request changed log₁ spec version) : IsOverlay request changed log₂ spec version :=
  ⟨h.1, h.2.imp fun _ _ => IsContent.mono hlog⟩

theorem isOverlay_of_fetchOverlay {changed : List ChangedFile} {spec : Spec} {version : Spec × Overlay}
    {others : Wait → Desk → Desk → Prop}
    (h : Attempt.Runs others (fetchOverlay c token changed spec) d log (.ok version) d') :
    IsOverlay c.request changed log spec version := by
  rw [fetchOverlay, Attempt.runs_bind_ok] at h
  obtain ⟨_, overlay, _, _, rfl, hcontents, h⟩ := h
  obtain ⟨rfl, hversion, -⟩ := Attempt.runs_pure.mp h
  obtain rfl := Except.ok.inj hversion
  rw [List.append_nil]
  exact ⟨rfl, forall₂_of_mapM IsContent.mono (fun _ => isContent_of_fetchContent) hcontents⟩

/-! ## Checks -/

theorem leaves_checkVersion (version : Spec × Overlay) :
    Attempt.Leaves c.serial Exchange.IsAside (checkVersion s version) := by
  have hwork : Task.Leaves c.serial Exchange.IsAside (Task.await .work) :=
    Task.leaves_await (fun _ h => nomatch h) fun _ e he => nomatch he
  unfold checkVersion
  exact Attempt.leaves_bind (α := Unit) (Attempt.leaves_lift hwork) fun _ =>
    Attempt.leaves_bind (Attempt.leaves_ofExcept _) fun _ => Attempt.leaves_pure _

/-- The result is what a check of the version with its overlay finds. -/
def IsResult (s : Service) (version : Spec × Overlay) (checked : Spec × CheckResult) : Prop :=
  checked.1 = version.1
    ∧ checkRegistryPackage s.registry version.1 (some version.2) true = .ok checked.2

theorem isResult_of_checkVersion {version : Spec × Overlay} {checked : Spec × CheckResult}
    {others : Wait → Desk → Desk → Prop}
    (h : Attempt.Runs others (checkVersion s version) d log (.ok checked) d') :
    IsResult s version checked := by
  obtain ⟨_, _, _, _, rfl, -, hcheck⟩ := Attempt.runs_lift_bind.mp h
  obtain ⟨_, result, _, _, rfl, hcheck, h⟩ := Attempt.runs_bind_ok.mp hcheck
  obtain ⟨-, hresult, -⟩ := Attempt.runs_ofExcept.mp hcheck
  obtain ⟨-, hchecked, -⟩ := Attempt.runs_pure.mp h
  obtain rfl := Except.ok.inj hchecked
  exact ⟨rfl, mapError_eq_ok.mp hresult.symm⟩

end TypstLint.Delivery
