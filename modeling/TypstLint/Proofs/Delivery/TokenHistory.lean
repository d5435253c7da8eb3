import TypstLint.Proofs.Assoc
import TypstLint.Proofs.Delivery.Runs

set_option autoImplicit false

/-! # The tokens at hand over time

Whatever is asked for, dropped and answered, and however much time passes, what lies at hand for an
installation is the token that was exchanged for it last, unless it was dropped since (`latest`). Such a token
is given out as long as it is good for use; otherwise there is one exchange, and its outcome is what counts. -/

namespace TypstLint.Delivery

open GitHub (Call Failure InstallationToken)

variable {α β σ : Type} {remote : Remote σ} {r r' : σ} {d d' : Desk} {s : Service} {installation : Int}

/-! ## Tasks on their own -/

theorem Step.run_bind (t : Step α) (f : α → Desk → Step β) :
    (t.bind f).run remote r = (f (t.run remote r).1.1 (t.run remote r).1.2).run remote (t.run remote r).2 := by
  induction t generalizing r with
  | done a d => rfl
  | wait w d next ih => exact ih _ _

theorem Task.run_bind (t : Task α) (f : α → Task β) :
    (t >>= f).run remote d r
      = (f (t.run remote d r).1.1).run remote (t.run remote d r).1.2 (t.run remote d r).2 :=
  Step.run_bind _ _

namespace Attempt

/-- What an attempt on its own comes to, and what it leaves. -/
def on (x : Attempt α) (remote : Remote σ) (d : Desk) (r : σ) : (Except Failure α × Desk) × σ :=
  Task.run x.run remote d r

theorem on_bind_ok {x : Attempt α} {f : α → Attempt β} {a : α} (h : x.on remote d r = ((.ok a, d'), r')) :
    (x >>= f).on remote d r = (f a).on remote d' r' := by
  rw [on] at h
  rw [on, ExceptT.run_bind, Task.run_bind, h]
  rfl

theorem on_bind_error {x : Attempt α} {f : α → Attempt β} {e : Failure}
    (h : x.on remote d r = ((.error e, d'), r')) : (x >>= f).on remote d r = ((.error e, d'), r') := by
  rw [on] at h
  rw [on, ExceptT.run_bind, Task.run_bind, h]
  rfl

theorem on_read_bind (f : Desk → α) (g : α → Attempt β) :
    ((liftM (Task.read f) : Attempt α) >>= g).on remote d r = (g (f d)).on remote d r :=
  on_bind_ok rfl

theorem on_modify_bind (f : Desk → Desk) (g : Unit → Attempt β) :
    ((liftM (Task.modify f) : Attempt Unit) >>= g).on remote d r = (g ()).on remote (f d) r :=
  on_bind_ok rfl

theorem on_ofExcept (x : Except Failure α) : (ofExcept x).on remote d r = ((x, d), r) := rfl

end Attempt

/-! ## Exchanges -/

/-- Something that answers calls, and puts on record what it is asked and what it answers. -/
def Remote.recorded (remote : Remote σ) : Remote (σ × List Exchange) where
  answer c := fun (r, calls) =>
    let (answer, r) := remote.answer c r
    (answer, r, calls ++ [⟨c, answer⟩])

/-- An exchange for an installation: a claim is signed and sent once. If it cannot be signed, nothing is
sent. -/
inductive Service.Exchanges (s : Service) (now installation : Int) :
    List Exchange → Except Failure InstallationToken → Prop where
  | unsigned {f : Failure} (h : s.mint now = .error f) : Exchanges s now installation [] (.error f)
  | sent {claim : String} (h : s.mint now = .ok claim) (answer : Except Failure InstallationToken) :
      Exchanges s now installation [⟨.exchange claim installation s.repositories, answer⟩] answer

/-- What lies at hand after an exchange. -/
def Tokens.keep (ts : Tokens) (installation : Int) : Except Failure InstallationToken → Tokens
  | .ok t => ts.store installation t
  | .error _ => ts

/-- The desk after an exchange. -/
def Desk.keep (d : Desk) (installation : Int) (outcome : Except Failure InstallationToken) : Desk :=
  { d with tokens := d.tokens.keep installation outcome }

theorem on_exchange (s : Service) (remote : Remote σ) (installation : Int) (d : Desk) (r : σ) :
    ∃ calls outcome r', s.Exchanges d.now installation calls outcome ∧
      (s.exchange installation).on remote.recorded d (r, [])
        = ((outcome.map (·.token), d.keep installation outcome), r', calls) := by
  rw [Service.exchange, Task.now, Attempt.on_read_bind]
  cases hmint : s.mint d.now with
  | error f => exact ⟨[], .error f, r, .unsigned hmint, Attempt.on_bind_error (Attempt.on_ofExcept _)⟩
  | ok claim =>
    rw [Attempt.on_bind_ok (Attempt.on_ofExcept _)]
    obtain ⟨answer, r', hanswer⟩ : ∃ answer r',
        remote.answer (.exchange claim installation s.repositories) r = (answer, r') := ⟨_, _, rfl⟩
    have hcall : (Attempt.call (.exchange claim installation s.repositories)).on remote.recorded d (r, [])
        = ((answer, d), r', [⟨.exchange claim installation s.repositories, answer⟩]) := by
      show (((remote.recorded.answer _ (r, [])).1, d), (remote.recorded.answer _ (r, [])).2) = _
      simp [Remote.recorded, hanswer]
    refine ⟨_, answer, r', .sent hmint answer, ?_⟩
    cases answer with
    | error f => exact Attempt.on_bind_error hcall
    | ok t =>
      rw [Attempt.on_bind_ok hcall, Attempt.on_modify_bind]
      rfl

/-! ## The lock -/

theorem run_acquire_tokens (h : d.tokens.lock.isFree = true) :
    (Task.acquire .tokens).run remote d r = (((), d.updateLock .tokens Lock.take), r) := by
  rw [Task.acquire, Task.run_bind]
  show Task.run (if d.tokens.lock.isFree = true then _ else _) remote d r = _
  rw [if_pos h]
  rfl

theorem on_locked_tokens {x : Attempt α} {result : Except Failure α} (d' : Desk)
    (h : d.tokens.lock.isFree = true)
    (hx : x.on remote (d.updateLock .tokens Lock.take) r = ((result, d'), r')) :
    (Attempt.locked .tokens x).on remote d r
      = ((result, ((Task.release .tokens).run remote d' r').1.2), r') := by
  rw [Attempt.on] at hx ⊢
  have hrun : (Attempt.locked .tokens x).run = (do
      Task.acquire .tokens
      let outcome ← x.run
      Task.release .tokens
      return outcome) := rfl
  rw [hrun, Task.run_bind, run_acquire_tokens h, Task.run_bind, hx, Task.run_bind]
  rfl

/-- Between two uses nobody holds the lock. -/
structure Desk.Rests (d : Desk) (now : Int) : Prop where
  now_eq : d.now = now
  isFree : d.tokens.lock.isFree = true

/-- The lock is given back as it was. -/
theorem Desk.Rests.released {now : Int} (h : d.Rests now) (hnow : d'.now = now)
    (hlock : d'.tokens.lock = d.tokens.lock.take) :
    ((Task.release .tokens).run remote d' r).1.2.Rests now := by
  have hqueue : d.tokens.lock.queue.isEmpty = true := (Bool.and_eq_true_iff.mp h.isFree).2
  refine ⟨hnow, ?_⟩
  show d'.tokens.lock.giveBack.isFree = true
  simp [hlock, Lock.isFree, Lock.take, Lock.giveBack, hqueue]

/-! ## Getting a token -/

/-- How a token is given out, and what lies at hand then: it is the one at hand if that is good for use, and
the outcome of an exchange otherwise. -/
inductive Service.Gives (s : Service) (now installation : Int) (ts : Tokens) :
    List Exchange → Except Failure String → List (Int × InstallationToken) → Prop where
  | atHand {t : InstallationToken} (h : ts.fresh? now installation = some t) :
      Gives s now installation ts [] (.ok t.token) ts.entries
  | exchanged {calls : List Exchange} {outcome : Except Failure InstallationToken}
      (h : ts.fresh? now installation = none) (hexchange : s.Exchanges now installation calls outcome) :
      Gives s now installation ts calls (outcome.map (·.token)) (ts.keep installation outcome).entries

theorem Tokens.lock_keep (ts : Tokens) (outcome : Except Failure InstallationToken) :
    (ts.keep installation outcome).lock = ts.lock := by
  cases outcome with
  | ok t => rfl
  | error f => rfl

/-- What lies at hand is given out under the lock, and what does not is exchanged under the lock. -/
theorem on_getToken (s : Service) (remote : Remote σ) (installation : Int) (r : σ) {now : Int}
    (h : d.Rests now) :
    ∃ calls result d' r', (s.getToken installation).on remote.recorded d (r, []) = ((result, d'), r', calls) ∧
      d'.Rests now ∧ s.Gives now installation d.tokens calls result d'.tokens.entries := by
  rw [Service.getToken, Task.freshToken]
  obtain ⟨rfl, hfree⟩ := h
  have htaken : (d.updateLock .tokens Lock.take).tokens.fresh? (d.updateLock .tokens Lock.take).now installation
      = d.tokens.fresh? d.now installation := rfl
  cases hfresh : d.tokens.fresh? d.now installation with
  | some t =>
    refine ⟨[], .ok t.token, _, r, on_locked_tokens (d.updateLock .tokens Lock.take) hfree ?_, ?_,
      .atHand hfresh⟩
    · rw [Attempt.on_read_bind, htaken, hfresh]
      rfl
    · exact Desk.Rests.released ⟨rfl, hfree⟩ rfl rfl
  | none =>
    obtain ⟨calls, outcome, r', hexchange, hon⟩ :=
      on_exchange s remote installation (d.updateLock .tokens Lock.take) r
    refine ⟨calls, outcome.map (·.token), _, r',
      on_locked_tokens ((d.updateLock .tokens Lock.take).keep installation outcome) hfree ?_, ?_, ?_⟩
    · rw [Attempt.on_read_bind, htaken, hfresh]
      exact hon
    · exact Desk.Rests.released ⟨rfl, hfree⟩ rfl (Tokens.lock_keep _ outcome)
    · have hkeep : ((d.updateLock .tokens Lock.take).tokens.keep installation outcome).entries
          = (d.tokens.keep installation outcome).entries := by
        cases outcome with
        | ok t => rfl
        | error f => rfl
      have hgives := Service.Gives.exchanged hfresh hexchange
      rw [← hkeep] at hgives
      exact hgives

/-! ## Dropping tokens -/

theorem run_dropTokens (remote : Remote σ) (which : Option Int) (r : σ) {now : Int} (h : d.Rests now) :
    ∃ d', (dropTokens which).run remote d r = (((), d'), r) ∧ d'.Rests now ∧
      d'.tokens.entries = (d.tokens.drop which).entries := by
  let taken := d.updateLock .tokens Lock.take
  let dropped : Desk := { taken with tokens := taken.tokens.drop which }
  refine ⟨((Task.release .tokens).run remote dropped r).1.2, ?_, h.released h.now_eq ?_, ?_⟩
  · rw [dropTokens, Task.run_bind, run_acquire_tokens h.isFree]
    rfl
  · cases which with
    | none => rfl
    | some installation => rfl
  · cases which with
    | none => rfl
    | some installation => rfl

/-! ## Histories -/

/-- What is done with the tokens. -/
inductive TokenUse where
  | get (installation : Int)
  | drop (installation : Option Int)
  /-- Some microseconds pass. -/
  | pass (time : Nat)

/-- Whether a use is not about an installation. -/
def TokenUse.Spares (other : Int) : TokenUse → Prop
  | get installation | drop (some installation) => installation ≠ other
  | drop none => False
  | pass _ => True

/-- What was done with the tokens: the token of an installation was asked for, which took some calls, or
tokens were dropped. -/
inductive TokenEvent where
  | got (installation : Int) (calls : List Exchange) (result : Except Failure String)
  | dropped (installation : Option Int)

/-- The token that an answer brought for an installation. -/
def Exchange.token? (e : Exchange) (installation : Int) : Option InstallationToken :=
  match e with
  | ⟨.exchange _ i _, answer⟩ => if i = installation then Except.toOption answer else none
  | _ => none

namespace TokenEvent

/-- The token that was brought for an installation. -/
def brought? (installation : Int) : TokenEvent → Option InstallationToken
  | got _ calls _ => calls.findSome? (·.token? installation)
  | dropped _ => none

/-- Whether the token of an installation was dropped. -/
def drops (installation : Int) : TokenEvent → Bool
  | got .. => false
  | dropped (some i) => installation == i
  | dropped none => true

end TokenEvent

/-- The token that was brought last for an installation, unless it was dropped since. The events have the last
one first. -/
def latest (installation : Int) : List TokenEvent → Option InstallationToken
  | [] => none
  | e :: earlier =>
    if e.drops installation then none else (e.brought? installation).or (latest installation earlier)

/-- How it stands after some uses: the desk, what answers calls, and what was done, the last first. -/
structure TokenLog (σ : Type) where
  desk : Desk
  remote : σ
  events : List TokenEvent := []

namespace TokenLog

/-- A service that starts. -/
def start (ledger : Ledger) (now : Int) (r : σ) : TokenLog σ := { desk := .start ledger now, remote := r }

/-- How it stands after one more use. -/
def next (s : Service) (remote : Remote σ) (l : TokenLog σ) : TokenUse → TokenLog σ
  | .get installation =>
    let ((result, desk), r, calls) := (s.getToken installation).on remote.recorded l.desk (l.remote, [])
    ⟨desk, r, .got installation calls result :: l.events⟩
  | .drop which =>
    let ((_, desk), r) := (dropTokens which).run remote l.desk l.remote
    ⟨desk, r, .dropped which :: l.events⟩
  | .pass time => { l with desk := { l.desk with now := l.desk.now + time } }

/-- How it stands after some more uses. -/
def after (s : Service) (remote : Remote σ) (l : TokenLog σ) (uses : List TokenUse) : TokenLog σ :=
  uses.foldl (next s remote) l

/-- What lies at hand is what was brought last, and nobody holds the lock. -/
structure IsOrderly (l : TokenLog σ) : Prop where
  rests : l.desk.Rests l.desk.now
  lookup_eq : ∀ installation, l.desk.tokens.entries.lookup installation = latest installation l.events

variable {l : TokenLog σ}

theorem next_get (s : Service) (remote : Remote σ) (installation : Int) {now : Int} (h : l.desk.Rests now) :
    ∃ calls result, (l.next s remote (.get installation)).events = .got installation calls result :: l.events ∧
      (l.next s remote (.get installation)).desk.Rests now ∧
      s.Gives now installation l.desk.tokens calls result
        (l.next s remote (.get installation)).desk.tokens.entries := by
  obtain ⟨calls, result, d', r', hon, hrests, hgives⟩ := on_getToken s remote installation l.remote h
  have hnext : l.next s remote (.get installation) = ⟨d', r', .got installation calls result :: l.events⟩ := by
    rw [next, hon]
  rw [hnext]
  exact ⟨calls, result, rfl, hrests, hgives⟩

theorem next_drop (s : Service) (remote : Remote σ) (which : Option Int) {now : Int} (h : l.desk.Rests now) :
    (l.next s remote (.drop which)).events = .dropped which :: l.events ∧
      (l.next s remote (.drop which)).desk.Rests now ∧
      (l.next s remote (.drop which)).desk.tokens.entries = (l.desk.tokens.drop which).entries := by
  obtain ⟨d', hrun, hrests, hentries⟩ := run_dropTokens remote which l.remote h
  have hnext : l.next s remote (.drop which) = ⟨d', l.remote, .dropped which :: l.events⟩ := by
    rw [next, hrun]
  rw [hnext]
  exact ⟨rfl, hrests, hentries⟩

end TokenLog

/-! ## What lies at hand -/

/-- What a call brought is at hand, and of other installations what was at hand before. -/
theorem Service.Gives.lookup_eq {now : Int} {ts : Tokens} {calls : List Exchange}
    {result : Except Failure String} {entries : List (Int × InstallationToken)}
    (h : s.Gives now installation ts calls result entries) (other : Int) :
    entries.lookup other = (calls.findSome? (·.token? other)).or (ts.entries.lookup other) := by
  cases h with
  | atHand _ => rfl
  | @exchanged _ outcome _ hexchange =>
    cases hexchange with
    | unsigned _ => rfl
    | sent _ =>
      cases outcome with
      | error f => simp [Tokens.keep, Exchange.token?, Except.toOption]
      | ok t =>
        simp only [Tokens.keep, Tokens.store, Assoc.lookup_set]
        by_cases hother : other = installation
        · simp [hother, Exchange.token?, Except.toOption]
        · simp [hother, Exchange.token?, Ne.symm hother]

theorem Service.Gives.token?_eq_none {now other : Int} {ts : Tokens} {calls : List Exchange}
    {result : Except Failure String} {entries : List (Int × InstallationToken)}
    (h : s.Gives now installation ts calls result entries) (hne : installation ≠ other) :
    calls.findSome? (·.token? other) = none := by
  cases h with
  | atHand _ => rfl
  | exchanged _ hexchange =>
    cases hexchange with
    | unsigned _ => rfl
    | sent _ => simp [Exchange.token?, hne]

/-- A failure leaves what lies at hand as it was. -/
theorem Service.Gives.entries_eq {now : Int} {ts : Tokens} {calls : List Exchange} {f : Failure}
    {entries : List (Int × InstallationToken)}
    (h : s.Gives now installation ts calls (.error f) entries) : entries = ts.entries := by
  generalize hresult : (Except.error f : Except Failure String) = result at h
  cases h with
  | atHand _ => rfl
  | @exchanged _ outcome _ _ =>
    cases outcome with
    | ok t => cases hresult
    | error f => rfl

theorem Tokens.lookup_drop (ts : Tokens) (which : Option Int) (other : Int) :
    (ts.drop which).entries.lookup other
      = if (TokenEvent.dropped which).drops other then none else ts.entries.lookup other := by
  cases which with
  | none => rfl
  | some installation => exact Assoc.lookup_erase

namespace TokenLog

variable {l : TokenLog σ}

theorem isOrderly_next (s : Service) (remote : Remote σ) (use : TokenUse) (h : l.IsOrderly) :
    (l.next s remote use).IsOrderly := by
  cases use with
  | get installation =>
    obtain ⟨calls, result, hevents, hrests, hgives⟩ := next_get s remote installation h.rests
    refine ⟨hrests.now_eq ▸ hrests, fun other => ?_⟩
    rw [hevents, hgives.lookup_eq, h.lookup_eq]
    rfl
  | drop which =>
    obtain ⟨hevents, hrests, hentries⟩ := next_drop s remote which h.rests
    refine ⟨hrests.now_eq ▸ hrests, fun other => ?_⟩
    rw [hevents, hentries, Tokens.lookup_drop, h.lookup_eq]
    rfl
  | pass time => exact ⟨⟨rfl, h.rests.isFree⟩, h.lookup_eq⟩

theorem isOrderly_after (s : Service) (remote : Remote σ) (uses : List TokenUse) (h : l.IsOrderly) :
    (l.after s remote uses).IsOrderly := by
  induction uses generalizing l with
  | nil => exact h
  | cons use uses ih => exact ih (isOrderly_next s remote use h)

theorem isOrderly_start (ledger : Ledger) (now : Int) (r : σ) : (start ledger now r).IsOrderly :=
  ⟨⟨rfl, rfl⟩, fun _ => rfl⟩

/-- How a token is given out after a history: it is the one that was brought last, if that holds for more than
five minutes, and the outcome of one exchange otherwise. -/
inductive Gives (s : Service) (l : TokenLog σ) (installation : Int) :
    List Exchange → Except Failure String → Prop where
  | atHand {t : InstallationToken} (hlatest : latest installation l.events = some t)
      (hfresh : Tokens.margin < t.expires.toUtc - l.desk.now) : Gives s l installation [] (.ok t.token)
  | exchanged {calls : List Exchange} {outcome : Except Failure InstallationToken}
      (hstale : ∀ t, latest installation l.events = some t → t.expires.toUtc - l.desk.now ≤ Tokens.margin)
      (hexchange : s.Exchanges l.desk.now installation calls outcome) :
      Gives s l installation calls (outcome.map (·.token))

theorem gives_of_orderly {calls : List Exchange} {result : Except Failure String}
    {entries : List (Int × InstallationToken)} (horderly : l.IsOrderly)
    (h : s.Gives l.desk.now installation l.desk.tokens calls result entries) :
    l.Gives s installation calls result := by
  cases h with
  | atHand hfresh =>
    obtain ⟨hlookup, hmargin⟩ := Option.filter_eq_some_iff.mp hfresh
    rw [horderly.lookup_eq] at hlookup
    exact .atHand hlookup (of_decide_eq_true hmargin)
  | exchanged hstale hexchange =>
    refine .exchanged (fun t ht => ?_) hexchange
    rw [← horderly.lookup_eq] at ht
    have hnot : Tokens.isFresh l.desk.now t = false := by
      simpa [Tokens.fresh?, ht] using hstale
    exact Int.not_lt.mp (of_decide_eq_false hnot)

/-- A use brings and drops nothing for an installation that it is not about. -/
theorem latest_next {other : Int} {use : TokenUse} (remote : Remote σ) (horderly : l.IsOrderly)
    (h : use.Spares other) : latest other (l.next s remote use).events = latest other l.events := by
  cases use with
  | get installation =>
    obtain ⟨calls, result, hevents, -, hgives⟩ := next_get s remote installation horderly.rests
    have hcalls : calls.findSome? (·.token? other) = none := hgives.token?_eq_none h
    simp [hevents, latest, TokenEvent.drops, TokenEvent.brought?, hcalls]
  | drop which =>
    obtain ⟨hevents, -, -⟩ := next_drop s remote which horderly.rests
    cases which with
    | none => exact h.elim
    | some installation =>
      simp [hevents, latest, TokenEvent.drops, TokenEvent.brought?, beq_false_of_ne (Ne.symm h)]
  | pass time => rfl

/-- **Who asks for a token gets the one that was brought last, without a call, if it was not dropped since and
holds for more than five minutes, and the outcome of one exchange otherwise.** A failure leaves what lies at
hand as it was, and no use changes what another installation gets. -/
theorem gives_of_history (s : Service) (remote : Remote σ) (ledger : Ledger) (now : Int) (r : σ)
    (uses : List TokenUse) :
    let l := (start ledger now r).after s remote uses
    (∀ installation, ∃ calls result,
      (l.next s remote (.get installation)).events = .got installation calls result :: l.events ∧
      l.Gives s installation calls result ∧
      ∀ f, result = .error f →
        (l.next s remote (.get installation)).desk.tokens.entries = l.desk.tokens.entries) ∧
    ∀ use other, use.Spares other → latest other (l.next s remote use).events = latest other l.events ∧
      (l.next s remote use).desk.tokens.entries.lookup other = l.desk.tokens.entries.lookup other := by
  intro l
  have horderly : l.IsOrderly := isOrderly_after s remote uses (isOrderly_start ledger now r)
  constructor
  · intro installation
    obtain ⟨calls, result, hevents, -, hgives⟩ := next_get s remote installation horderly.rests
    refine ⟨calls, result, hevents, gives_of_orderly horderly hgives, ?_⟩
    rintro f rfl
    exact hgives.entries_eq
  · intro use other hspares
    have hlatest := latest_next (s := s) remote horderly hspares
    refine ⟨hlatest, ?_⟩
    rw [(isOrderly_next s remote use horderly).lookup_eq, hlatest, horderly.lookup_eq]

/-- Gives out tokens that hold until an hour after the start of 1970. -/
def hourly : Remote Unit where
  answer call := fun _ => (match call with
    | .exchange .. => .ok { token := "ghs", expires := ⟨60 * Text.Timestamp.minute, none⟩ }
    | _ => .error .unfit, ())

-- five minutes before its end, a token is no longer given out
example :
    let s : Service := { registry := ⟨.empty, []⟩, credentials := ⟨1, fun _ => .ok "jwt"⟩ }
    let uses : List TokenUse := [.get 7, .get 7, .pass 3300000000, .get 7]
    ((start {} 0 ()).after s hourly uses).events.map (fun
      | .got _ calls _ => calls.length
      | .dropped _ => 0) = [1, 0, 1] := by
  decide +kernel

end TokenLog

end TypstLint.Delivery
