import TypstLint.Delivery.Handle
import TypstLint.Proofs.Delivery.Guarded
import TypstLint.Proofs.Delivery.Ledgers

set_option autoImplicit false

/-! # Going on

An attempt goes on from state to state with the lock of its record in hand. What it makes of its record,
and what it puts on record about it, is said of every turn that it has at the desk (`Turn`): whatever
others do in between leaves the record where it is. An attempt that goes on in each of its turns
(`Attempt.Goes`) ends in one of the states that are allowed for its result. -/

namespace TypstLint.Delivery

open GitHub (Call Failure)

/-! ## The order of states -/

/-- Whether a check may go on from a state to another one. -/
def State.Precedes (a b : State) : Prop := a.isTerminal = false ∧ a.rank < b.rank

instance (a b : State) : Decidable (a.Precedes b) := inferInstanceAs (Decidable (_ ∧ _))

/-- Whether a check goes on from a state through the states `told`, and is in the state `b` then. -/
def State.Leads (a : State) : List State → State → Prop
  | [], b => b = a
  | next :: told, b => a.Precedes next ∧ next.Leads told b

theorem State.Leads.trans {a b : State} {told : List State} (h : a.Leads told b) {told' : List State}
    {c : State} (h' : b.Leads told' c) : a.Leads (told ++ told') c := by
  induction told generalizing a with
  | nil => exact h ▸ h'
  | cons next told ih => exact ⟨h.1, ih h.2⟩

theorem State.Leads.isChain {a b : State} {told : List State} (h : a.Leads told b) :
    (a :: told).IsChain State.Precedes := by
  induction told generalizing a with
  | nil => exact .singleton a
  | cons next told ih => exact .cons_cons h.1 (ih h.2)

theorem State.Leads.getLast? {a b : State} {told : List State} (h : a.Leads told b) :
    (a :: told).getLast? = some b := by
  induction told generalizing a with
  | nil => exact congrArg some h.symm
  | cons next told ih => rw [List.getLast?_cons_cons, ih h.2]

/-- Nothing comes before the first state. -/
theorem State.Leads.notMem_received {a b : State} {told : List State} (h : a.Leads told b) :
    State.received ∉ told := by
  induction told generalizing a with
  | nil => exact List.not_mem_nil
  | cons next told ih =>
    intro hmem
    rcases List.mem_cons.mp hmem with rfl | hmem
    · exact absurd h.1.2 (Nat.not_lt_zero _)
    · exact ih h.2 hmem

/-- A check goes on exactly where the record allows it. -/
theorem Record.advance_of_precedes {r : Record} {b : State} (h : r.state.Precedes b)
    (reason : Option String) : r.advance b reason = .ok { r with state := b, reason } := by
  rw [Record.advance, if_neg (Bool.not_eq_true _ ▸ h.1), if_neg (Nat.not_le.mpr h.2)]

theorem State.precedes_failed {a : State} (h : a.isTerminal = false) : a.Precedes .failed := by
  refine ⟨h, ?_⟩
  cases a <;> first | decide | cases h

/-! ## What is put on record -/

/-- The state that a notice puts on record; one about a package tells no new one. -/
def Notice.taken? (n : Notice) : Option State := if n.package.isNone then some n.state else none

/-- The states that notices put on record, the first one first. -/
def taken (notices : List Notice) : List State := notices.reverse.filterMap Notice.taken?

theorem taken_append (new old : List Notice) : taken (new ++ old) = taken old ++ taken new := by
  rw [taken, List.reverse_append, List.filterMap_append]
  rfl

/-- The failures that an attempt may meet: that of a call, that of signing a claim of the app, that of
working out what a pull request touches, that of checking a version, and that a check run is missing. -/
inductive Service.Meets (s : Service) (log : List Exchange) : Failure → Prop where
  | answer {e : Exchange} {f : Failure} (he : e ∈ log) (hf : e.answer = .error f) : Meets s log f
  | signing {now : Int} {f : Failure} (h : s.mint now = .error f) : Meets s log f
  | listing {files : List GitHub.ChangedFile} {fault : Fault} (h : touched files = .error fault) :
      Meets s log (.fault fault)
  | checking {spec : Spec} {overlay : Overlay} {fault : Fault}
      (h : checkRegistryPackage s.registry spec (some overlay) true = .error fault) :
      Meets s log (.fault fault)
  | missing (spec : Spec) : Meets s log (.other "KeyError" (Text.quoted spec.render))

/-- Whether a notice that a check failed, if it is one, tells why it did. -/
def Service.Explains (s : Service) (log : List Exchange) (n : Notice) : Prop :=
  n.taken? = some .failed → ∃ f, s.Meets log f ∧ n.error = some f.kind
    ∧ n.reason = some s!"{f.kind}: {f.message}"

/-! ## Turns -/

/-- The ledger is sound, and the record of a case is there with its lock held, in a state of one of its
attempts. -/
structure Case.IsAt (c : Case) (attempts : Nat) (a : State) (l : Ledger) : Prop where
  sound : l.IsSound
  there : ∃ r ∈ l.all, r.serial = c.serial ∧ r.key = c.request.key ∧ r.lock.held = true ∧ r.state = a
    ∧ r.attempts = attempts

/-- What a turn of an attempt makes of the desk. -/
structure Case.Turn (s : Service) (log : List Exchange) (c : Case) (attempts : Nat) (a : State) (d : Desk)
    (b : State) (d' : Desk) : Prop where
  passes : d.ledger.Passes (some c.serial) d'.ledger
  isAt : c.IsAt attempts b d'.ledger
  tells : ∃ new, d'.notices = new ++ d.notices ∧ a.Leads (taken new) b ∧ ∀ n ∈ new, s.Explains log n

/-- In each of its turns an attempt goes on, and in the end it has a result that fits its state. While it
has the lock, it waits for the lock of no record. -/
def Step.Goes (s : Service) (log : List Exchange) (c : Case) (attempts : Nat) {α : Type}
    (post : α → State → Prop) : Step α → State → Prop
  | .done x _, a => post x a
  | .wait w _ next, a => (∀ n ticket, w ≠ .turn (.record n) ticket)
      ∧ ∀ answer d, w.exchanges answer ⊆ log → c.IsAt attempts a d.ledger →
        ∃ b, c.Turn s log attempts a d b (next answer d).desk
          ∧ (next answer d).Goes s log c attempts post b

/-- A task goes on from a state, in the turn in which it starts and in those that follow. -/
def Task.Goes (s : Service) (log : List Exchange) (c : Case) (attempts : Nat) {α : Type} (t : Task α)
    (a : State) (post : α → State → Prop) : Prop :=
  ∀ d, c.IsAt attempts a d.ledger →
    ∃ b, c.Turn s log attempts a d b (t d).desk ∧ (t d).Goes s log c attempts post b

/-- The states that are allowed for a result, and the failures that may be one. -/
def Service.Allows (s : Service) (log : List Exchange) (ok err : State → Prop) {α : Type} :
    Except Failure α → State → Prop
  | .ok _, b => ok b
  | .error f, b => err b ∧ s.Meets log f

/-- An attempt goes on from a state to one of the states `ok`, or fails in one of the states `err`. -/
def Attempt.Goes (s : Service) (log : List Exchange) (c : Case) (attempts : Nat) {α : Type}
    (x : Attempt α) (a : State) (ok err : State → Prop) : Prop :=
  Task.Goes s log c attempts x.run a (s.Allows log ok err)

variable {s : Service} {log : List Exchange} {c : Case} {attempts : Nat} {a b : State} {d d₁ d₂ d₃ : Desk}
  {l l' : Ledger} {own : Option Nat} {α β : Type}

/-- What others do leaves the record in hand where it is. -/
theorem Case.IsAt.passes (h : c.IsAt attempts a l) (hsound : l'.IsSound) (hpasses : l.Passes own l')
    (hown : own ≠ some c.serial) : c.IsAt attempts a l' := by
  obtain ⟨r, hr, hserial, hkey, hheld, hstate, hattempts⟩ := h.there
  obtain ⟨r', hr', hlike⟩ := hpasses.stays r hr (hserial ▸ hown) hheld
  exact ⟨hsound, r', hr', hlike.serial_eq.trans hserial, hlike.key_eq.trans hkey,
    hlike.held_eq.trans hheld, hlike.state_eq.trans hstate, hlike.attempts_eq.trans hattempts⟩

/-- The record in hand is the only one with its number. -/
theorem Case.IsAt.of_serial {r : Record} (h : c.IsAt attempts a l) (hr : r ∈ l.all)
    (hserial : r.serial = c.serial) :
    r.key = c.request.key ∧ r.lock.held = true ∧ r.state = a ∧ r.attempts = attempts := by
  obtain ⟨r', hr', hserial', hrest⟩ := h.there
  obtain rfl := h.sound.serials r hr r' hr' (hserial.trans hserial'.symm)
  exact hrest

/-- A change of the record in hand, which stays in hand. -/
theorem Case.IsAt.update {f : Record → Record} {attempts' : Nat} (h : c.IsAt attempts a l)
    (hf : ∀ r ∈ l.all, r.serial = c.serial → r.lock.held = true → r.state = a → r.attempts = attempts →
      (f r).serial = r.serial ∧ (f r).key = r.key ∧ (f r).lock.held = true ∧ (f r).state = b
        ∧ (f r).attempts = attempts') :
    l.Passes (some c.serial) (l.update c.serial f) ∧ c.IsAt attempts' b (l.update c.serial f) := by
  have hchanged {r : Record} (hr : r ∈ l.all) (hserial : r.serial = c.serial) :
      (f r).serial = r.serial ∧ (f r).key = r.key ∧ (f r).lock.held = true ∧ (f r).state = b
        ∧ (f r).attempts = attempts' := by
    obtain ⟨-, hheld, hstate, hattempts⟩ := h.of_serial hr hserial
    exact hf r hr hserial hheld hstate hattempts
  have hkept : ∀ r ∈ l.all, r.serial = c.serial → (f r).serial = c.serial ∧ (f r).key = r.key := by
    intro r hr hserial
    obtain ⟨hserial', hkey, -⟩ := hchanged hr hserial
    exact ⟨hserial'.trans hserial, hkey⟩
  obtain ⟨r, hr, hserial, hkey, -⟩ := h.there
  obtain ⟨hserial', hkey', hrest⟩ := hchanged hr hserial
  refine ⟨Ledger.passes_update hkept fun hne => absurd rfl hne, h.sound.update hkept ?_, f r,
    Ledger.mem_all_update hr hserial, hserial'.trans hserial, hkey'.trans hkey, hrest⟩
  intro r hr hserial hfree
  obtain ⟨-, -, hheld, -⟩ := hchanged hr hserial
  rw [hheld] at hfree
  cases hfree

namespace Case.Turn

theorem trans {a₁ a₂ a₃ : State} (h : c.Turn s log attempts a₁ d₁ a₂ d₂)
    (h' : c.Turn s log attempts a₂ d₂ a₃ d₃) : c.Turn s log attempts a₁ d₁ a₃ d₃ := by
  obtain ⟨new, hnew, hleads, hexplains⟩ := h.tells
  obtain ⟨new', hnew', hleads', hexplains'⟩ := h'.tells
  refine ⟨h.passes.trans h'.passes, h'.isAt, new' ++ new, ?_, ?_, ?_⟩
  · rw [hnew', hnew, List.append_assoc]
  · rw [taken_append]
    exact hleads.trans hleads'
  · exact List.forall_mem_append.mpr ⟨hexplains', hexplains⟩

/-- A change that leaves the record in hand in its state, and tells no new one. -/
theorem of_quiet (hpasses : d₁.ledger.Passes (some c.serial) d₂.ledger)
    (hisAt : c.IsAt attempts a d₂.ledger) (hnotices : d₂.notices = d₁.notices) :
    c.Turn s log attempts a d₁ a d₂ :=
  ⟨hpasses, hisAt, [], hnotices, rfl, List.forall_mem_nil _⟩

theorem refl (h : c.IsAt attempts a d.ledger) : c.Turn s log attempts a d a d :=
  .of_quiet (.refl _ _) h rfl

end Case.Turn

/-! ## Steps and tasks -/

theorem Step.goes_bind {step : Step α} {f : α → Desk → Step β} {post : α → State → Prop}
    {post' : β → State → Prop} (hstep : step.Goes s log c attempts post a)
    (hisAt : c.IsAt attempts a step.desk.ledger)
    (hf : ∀ x b d, post x b → c.IsAt attempts b d.ledger →
      ∃ b', c.Turn s log attempts b d b' (f x d).desk ∧ (f x d).Goes s log c attempts post' b') :
    ∃ b, c.Turn s log attempts a step.desk b (step.bind f).desk
      ∧ (step.bind f).Goes s log c attempts post' b := by
  induction step generalizing a with
  | done x d => exact hf x a d hstep hisAt
  | wait w d next ih =>
    refine ⟨a, .refl hisAt, hstep.1, fun answer d₁ hlog hd₁ => ?_⟩
    obtain ⟨b, hturn, hgoes⟩ := hstep.2 answer d₁ hlog hd₁
    obtain ⟨b', hturn', hgoes'⟩ := ih answer d₁ hgoes hturn.isAt
    exact ⟨b', hturn.trans hturn', hgoes'⟩

theorem Step.Goes.mono {step : Step α} {post post' : α → State → Prop}
    (h : step.Goes s log c attempts post a) (hpost : ∀ x b, post x b → post' x b) :
    step.Goes s log c attempts post' a := by
  induction step generalizing a with
  | done x d => exact hpost x a h
  | wait w d next ih =>
    refine ⟨h.1, fun answer d₁ hlog hd₁ => ?_⟩
    obtain ⟨b, hturn, hgoes⟩ := h.2 answer d₁ hlog hd₁
    exact ⟨b, hturn, ih answer d₁ hgoes⟩

namespace Task

variable {post : α → State → Prop} {post' : β → State → Prop}

theorem goes_pure {x : α} (h : post x a) : Goes s log c attempts (pure x) a post :=
  fun _ hd => ⟨a, .refl hd, h⟩

theorem goes_bind {t : Task α} {f : α → Task β} (ht : t.Goes s log c attempts a post)
    (hf : ∀ x b, post x b → (f x).Goes s log c attempts b post') :
    (t >>= f).Goes s log c attempts a post' := by
  intro d hd
  obtain ⟨b, hturn, hgoes⟩ := ht d hd
  obtain ⟨b', hturn', hgoes'⟩ := Step.goes_bind hgoes hturn.isAt fun x b d h hd => hf x b h d hd
  exact ⟨b', hturn.trans hturn', hgoes'⟩

/-- A task that leaves the record in hand in its state, and tells no new one. -/
def Quiet (s : Service) (log : List Exchange) (c : Case) (attempts : Nat) (t : Task α) : Prop :=
  ∀ a, t.Goes s log c attempts a fun _ b => b = a

theorem quiet_bind {t : Task α} {f : α → Task β} (ht : t.Quiet s log c attempts)
    (hf : ∀ x, (f x).Quiet s log c attempts) : (t >>= f).Quiet s log c attempts :=
  fun a => goes_bind (ht a) fun x _ hb => hb ▸ hf x a

theorem quiet_read (f : Desk → α) : Quiet s log c attempts (read f) :=
  fun a _ hd => ⟨a, .refl hd, rfl⟩

theorem quiet_modify {g : Desk → Desk}
    (hg : ∀ a d, c.IsAt attempts a d.ledger → c.Turn s log attempts a d a (g d)) :
    (modify g).Quiet s log c attempts :=
  fun a d hd => ⟨a, hg a d hd, rfl⟩

/-- A change of other things than the ledger and the notices. -/
theorem quiet_modify_aside {g : Desk → Desk} (hledger : ∀ d, (g d).ledger = d.ledger)
    (hnotices : ∀ d, (g d).notices = d.notices) : (modify g).Quiet s log c attempts :=
  quiet_modify fun _ d hd =>
    .of_quiet (by rw [hledger d]; exact .refl _ _) (by rw [hledger d]; exact hd) (hnotices d)

/-- A change of other things than the state of the record in hand. -/
theorem quiet_update {f : Record → Record} (hf : ∀ r : Record, (f r).serial = r.serial
    ∧ (f r).key = r.key ∧ (f r).lock = r.lock ∧ (f r).state = r.state ∧ (f r).attempts = r.attempts) :
    (c.update f).Quiet s log c attempts := by
  refine quiet_modify fun a d hd => ?_
  obtain ⟨hpasses, hisAt⟩ := hd.update (f := f) fun r _ _ hheld hstate hattempts => by
    obtain ⟨hserial, hkey, hlock, hstate', hattempts'⟩ := hf r
    exact ⟨hserial, hkey, hlock ▸ hheld, hstate'.trans hstate, hattempts'.trans hattempts⟩
  exact .of_quiet hpasses hisAt rfl

/-- A notice about a package. -/
theorem quiet_note {n : Notice} (hn : n.package.isNone = false) : (note n).Quiet s log c attempts := by
  have htaken : n.taken? = none := by rw [Notice.taken?, hn]; rfl
  have hnone : taken [n] = [] := List.filterMap_cons_none htaken
  refine quiet_modify fun a d hd => ⟨.refl _ _, hd, [n], rfl, hnone ▸ rfl, ?_⟩
  refine List.forall_mem_singleton.mpr fun hfailed => ?_
  cases htaken.symm.trans hfailed

theorem quiet_takeTicket : takeTicket.Quiet s log c attempts :=
  fun a _ hd => ⟨a, .of_quiet (.refl _ _) hd rfl, rfl⟩

theorem quiet_await {w : Wait} (hw : ∀ n ticket, w ≠ .turn (.record n) ticket) :
    (await w).Quiet s log c attempts :=
  fun a _ hd => ⟨a, .refl hd, hw, fun _ _ _ hd₁ => ⟨a, .refl hd₁, rfl⟩⟩

theorem quiet_acquire_tokens : (acquire .tokens).Quiet s log c attempts := by
  refine quiet_bind (quiet_read _) fun free => ?_
  split
  · exact quiet_modify_aside (fun _ => rfl) fun _ => rfl
  · refine quiet_bind quiet_takeTicket fun ticket => ?_
    refine quiet_bind (quiet_modify_aside (fun _ => rfl) fun _ => rfl) fun _ => ?_
    refine quiet_bind (quiet_await fun _ _ => nofun) fun _ => ?_
    exact quiet_modify_aside (fun _ => rfl) fun _ => rfl

theorem quiet_release_tokens : (release .tokens).Quiet s log c attempts := by
  refine quiet_modify fun a d hd => ?_
  have hforget : d.ledger.Passes none d.ledger.forgetRetired := Ledger.passes_forgetRetired
  exact .of_quiet (hforget.some c.serial) (hd.passes hd.sound.forgetRetired hforget nofun) rfl

end Task

/-! ## Attempts -/

namespace Attempt

variable {ok ok' err err' : State → Prop}

theorem goes_pure {x : α} (h : ok a) : Goes s log c attempts (pure x) a ok err := Task.goes_pure h

theorem goes_throw {f : Failure} (h : err a) (hf : s.Meets log f) :
    Goes s log c attempts (throw f : Attempt α) a ok err :=
  Task.goes_pure ⟨h, hf⟩

theorem goes_ofExcept {x : Except Failure α} (hok : ok a) (herr : err a)
    (hx : ∀ f, x = .error f → s.Meets log f) : Goes s log c attempts (ofExcept x) a ok err := by
  refine Task.goes_pure ?_
  cases x with
  | ok x => exact hok
  | error f => exact ⟨herr, hx f rfl⟩

theorem goes_bind {x : Attempt α} {f : α → Attempt β} (hx : x.Goes s log c attempts a ok err)
    (hf : ∀ v b, ok b → (f v).Goes s log c attempts b ok' err) :
    (x >>= f).Goes s log c attempts a ok' err := by
  refine Task.goes_bind hx fun result b h => ?_
  cases result with
  | error e => exact Task.goes_pure h
  | ok v => exact hf v b h

/-- What comes after an attempt whose outcome is looked at. -/
theorem goes_outcome_bind {x : Attempt α} {f : Except Failure α → Attempt β}
    (hx : x.Goes s log c attempts a ok err)
    (hok : ∀ v b, ok b → (f (.ok v)).Goes s log c attempts b ok' err')
    (herr : ∀ e b, err b → s.Meets log e → (f (.error e)).Goes s log c attempts b ok' err') :
    (outcome x >>= f).Goes s log c attempts a ok' err' := by
  have hrun : (outcome x >>= f).run = x.run >>= fun result => (f result).run := by
    rw [outcome, ExceptT.run_bind, ExceptT.run_mk, bind_assoc]
    simp only [pure_bind]
  rw [Attempt.Goes, hrun]
  refine Task.goes_bind hx fun result b h => ?_
  cases result with
  | error e => exact herr e b h.1 h.2
  | ok v => exact hok v b h

theorem Goes.mono {x : Attempt α} (h : x.Goes s log c attempts a ok err) (hok : ∀ b, ok b → ok' b)
    (herr : ∀ b, err b → err' b) : x.Goes s log c attempts a ok' err' := by
  intro d hd
  obtain ⟨b, hturn, hgoes⟩ := h d hd
  refine ⟨b, hturn, hgoes.mono fun result b hallows => ?_⟩
  cases result with
  | error e => exact ⟨herr b hallows.1, hallows.2⟩
  | ok v => exact hok b hallows

/-- An attempt that leaves the record in hand in its state, and tells no new one. -/
def Quiet (s : Service) (log : List Exchange) (c : Case) (attempts : Nat) (x : Attempt α) : Prop :=
  ∀ a, x.Goes s log c attempts a (· = a) (· = a)

theorem quiet_pure (x : α) : Quiet s log c attempts (pure x) := fun _ => goes_pure rfl

theorem quiet_throw {f : Failure} (hf : s.Meets log f) :
    Quiet s log c attempts (throw f : Attempt α) := fun _ => goes_throw rfl hf

theorem quiet_ofExcept {x : Except Failure α} (hx : ∀ f, x = .error f → s.Meets log f) :
    Quiet s log c attempts (ofExcept x) := fun _ => goes_ofExcept rfl rfl hx

theorem quiet_bind {x : Attempt α} {f : α → Attempt β} (hx : x.Quiet s log c attempts)
    (hf : ∀ v, (f v).Quiet s log c attempts) : (x >>= f).Quiet s log c attempts :=
  fun a => goes_bind (hx a) fun v _ hb => hb ▸ hf v a

/-- What follows is in the same state. -/
theorem Quiet.goes_bind {x : Attempt α} {f : α → Attempt β} (hx : x.Quiet s log c attempts) (herr : err a)
    (hf : ∀ v, (f v).Goes s log c attempts a ok err) : (x >>= f).Goes s log c attempts a ok err :=
  Attempt.goes_bind ((hx a).mono (fun _ hb => hb) fun _ hb => hb ▸ herr) fun v _ hb => hb ▸ hf v

/-- A task does not fail. -/
theorem goes_lift {t : Task α} (ht : t.Quiet s log c attempts) :
    Goes s log c attempts (liftM t : Attempt α) a (· = a) err :=
  Task.goes_bind (ht a) fun _ _ hb => Task.goes_pure hb

theorem quiet_lift {t : Task α} (ht : t.Quiet s log c attempts) :
    Quiet s log c attempts (liftM t : Attempt α) := fun _ => goes_lift ht

theorem quiet_call (call : Call) : Quiet s log c attempts (Attempt.call call) := by
  refine fun a d hd => ⟨a, .refl hd, fun _ _ => nofun, fun answer d₁ hlog hd₁ => ⟨a, .refl hd₁, ?_⟩⟩
  cases answer with
  | ok _ => exact rfl
  | error f => exact ⟨rfl, .answer (hlog List.mem_cons_self) rfl⟩

theorem quiet_locked_tokens {x : Attempt α} (hx : x.Quiet s log c attempts) :
    (locked .tokens x).Quiet s log c attempts := by
  refine fun a => Task.goes_bind (Task.quiet_acquire_tokens a) fun _ b hb => ?_
  obtain rfl := hb
  refine Task.goes_bind (hx b) fun result b' hallows => ?_
  refine Task.goes_bind (Task.quiet_release_tokens b') fun _ _ hb' => Task.goes_pure ?_
  rw [hb']
  exact hallows

theorem quiet_forM {f : α → Attempt Unit} (hf : ∀ v, (f v).Quiet s log c attempts) (xs : List α) :
    Quiet s log c attempts (xs.forM f) := by
  induction xs with
  | nil => exact quiet_pure ()
  | cons x xs ih => exact quiet_bind (hf x) fun _ => ih

theorem quiet_mapM {f : α → Attempt β} (hf : ∀ v, (f v).Quiet s log c attempts) (xs : List α) :
    Quiet s log c attempts (xs.mapM f) := by
  induction xs with
  | nil => exact quiet_pure []
  | cons x xs ih =>
    rw [List.mapM_cons]
    exact quiet_bind (hf x) fun _ => quiet_bind ih fun _ => quiet_pure _

end Attempt

end TypstLint.Delivery
