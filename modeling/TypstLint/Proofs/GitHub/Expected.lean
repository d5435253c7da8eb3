import TypstLint.Proofs.GitHub.Bodies

set_option autoImplicit false

/-! # What calls end in

A call is expected to end in a value or in a client error. Which end it takes is told by the last thing that
came back for it: it ends otherwise exactly if that is of no use (`Outcome.IsUnusable`), such as a response
that tells of success and has a body of another form, or if a request could not be made. -/

namespace TypstLint.GitHub

variable {α β : Type} {c : Client} {q : Client.Query} {reads : ByteArray → Prop}

/-- Whether a failure is a client error. -/
def Failure.isClient : Failure → Bool
  | .client _ => true
  | _ => false

/-- Whether an outcome is one that a caller expects: a value or a client error. -/
def isExpected : Except Failure α → Bool
  | .ok _ => true
  | .error f => f.isClient

/-- What came back is of no use: it cannot be decoded as its headers tell, it is a rate limit that asks to
wait for a time that is no number, or it tells of success and has a body that cannot be read. -/
inductive Outcome.IsUnusable (reads : ByteArray → Prop) : Outcome → Prop where
  | garbled (message : String) : IsUnusable reads (.garbled message)
  | delay {r : Response} {value : String} (hlimit : r.isRateLimit = true)
      (h : r.retryAfter = .error value) : IsUnusable reads (.response r)
  | body {r : Response} (hsuccess : r.isSuccess = true) (h : ¬ reads r.body) :
      IsUnusable reads (.response r)

namespace Client

/-! ## Single requests -/

/-- A refusal is expected, unless it is a rate limit that asks to wait for a time that is no number. -/
theorem isExpected_refusal {r : Response} (h : r.isSuccess = false) :
    isExpected (.error (refusal q r) : Except Failure α) = false ↔ (Outcome.response r).IsUnusable reads := by
  constructor
  · intro hfalse
    rw [refusal] at hfalse
    split at hfalse
    · next hlimit =>
      split at hfalse
      · cases hfalse
      · next value hdelay => exact .delay hlimit hdelay
    · cases hfalse
  · rintro (_ | ⟨hlimit, hdelay⟩ | ⟨hsuccess, -⟩)
    · rw [refusal, if_pos hlimit, hdelay]
      rfl
    · simp [h] at hsuccess

/-- A failure is expected, unless what came back is of no use. -/
theorem isExpected_of_verdict {o : Outcome} {f : Failure} (h : verdict q o = .error f) :
    isExpected (.error f : Except Failure α) = false ↔ o.IsUnusable reads := by
  cases o with
  | broken message =>
    obtain rfl := Except.error.inj h
    exact ⟨nofun, nofun⟩
  | garbled message =>
    obtain rfl := Except.error.inj h
    exact ⟨fun _ => .garbled message, fun _ => rfl⟩
  | response r =>
    obtain ⟨hrefused, rfl⟩ := refused_of_verdict h
    exact isExpected_refusal hrefused

/-- A success is of use if its body can be read. -/
theorem isUnusable_iff_of_verdict {o : Outcome} {r : Response} (h : verdict q o = .ok r) :
    o.IsUnusable reads ↔ ¬ reads r.body := by
  obtain ⟨rfl, hsuccess⟩ := verdict_eq_ok_iff.mp h
  constructor
  · rintro (_ | ⟨hlimit, -⟩ | ⟨-, hbody⟩)
    · have := status_of_isRateLimit hlimit
      simp [isSuccess_eq_false (r := r) (by omega)] at hsuccess
    · exact hbody
  · exact .body hsuccess

theorem isExpected_eq_false_iff {x : Except Failure α} (h : ∀ e, x ≠ .error (.client e)) :
    isExpected x = false ↔ ¬ ∃ a, x = .ok a := by
  cases x with
  | ok a => simp [isExpected]
  | error f =>
    cases f with
    | client e => exact absurd rfl (h e)
    | _ => simp [isExpected, Failure.isClient]

theorem Decodes.isExpected_iff {decode : Response → Exchange α} {holds : ByteArray → α → Prop}
    (hdecode : Decodes decode holds) (r : Response) (w : Wire) :
    isExpected ((decode r).on w).1 = false ↔ ¬ ∃ x, holds r.body x := by
  rw [isExpected_eq_false_iff (hdecode.ne_client r w)]
  simp only [hdecode.eq_ok_iff]

/-- A request that was answered: the exchange comes to what the last thing that came back amounts to. -/
def Answers (c : Client) (q : Query) (x : Exchange Response) : Prop :=
  ∀ w, (∃ f, c.request q = .error f ∧ x.on w = (.error f, w)) ∨
    ∃ log e, w.Carries (log ++ [e]) (x.on w).2 ∧ (x.on w).1 = verdict q e.2

theorem answers_send : c.Answers q (c.send q) := by
  intro w
  cases hrequest : c.request q with
  | error f => exact .inl ⟨f, rfl, on_send_of_error hrequest⟩
  | ok request =>
    rw [on_send hrequest]
    exact .inr ⟨[], (request, (w.send request).1), w.carries_send request, rfl⟩

theorem answers_sendAgain (delay more : Nat) : c.Answers q (c.sendAgain q delay more) := by
  induction more generalizing delay with
  | zero => exact answers_send
  | succ more ih =>
    intro w
    cases hrequest : c.request q with
    | error f => exact .inl ⟨f, rfl, on_sendAgain_of_error hrequest delay _⟩
    | ok request =>
      have hsent := w.carries_send request
      cases htransient : (w.send request).1.isTransient with
      | false =>
        rw [on_sendAgain_last hrequest (.inr htransient)]
        exact .inr ⟨[], _, hsent, rfl⟩
      | true =>
        rw [on_sendAgain_next hrequest htransient]
        rcases ih (2 * delay) ((w.send request).2.pause delay) with ⟨f, hf, -⟩ | ⟨log, e, hlog, he⟩
        · rw [hrequest] at hf
          cases hf
        · exact .inr ⟨_ :: log, e, hsent.trans (.pause delay hlog), he⟩

theorem answers_get : c.Answers q (c.get q) := answers_sendAgain 500 2

/-! ## Exchanges -/

/-- Why an exchange ends otherwise than expected: a request that it makes cannot be made, or the last thing
that came back is of no use. -/
inductive Fails (c : Client) (asks : Query → Prop) (reads : ByteArray → Prop)
    (log : List (Request × Outcome)) : Except Failure α → Prop where
  | request {q : Query} {f : Failure} (hq : asks q) (h : c.request q = .error f) :
      Fails c asks reads log (.error f)
  | outcome {e : Request × Outcome} (hlast : log.getLast? = some e) (h : e.2.IsUnusable reads)
      (x : Except Failure α) : Fails c asks reads log x

/-- An exchange ends as expected, unless there is a reason why it does not. -/
def Judged (c : Client) (asks : Query → Prop) (reads : ByteArray → Prop) (x : Exchange α) : Prop :=
  ∀ w, ∃ log, w.Carries log (x.on w).2 ∧
    (isExpected (x.on w).1 = false ↔ c.Fails asks reads log (x.on w).1)

variable {asks : Query → Prop}

theorem Fails.castError {log : List (Request × Outcome)} {f : Failure}
    (h : c.Fails asks reads log (.error f : Except Failure α)) :
    c.Fails asks reads log (.error f : Except Failure β) := by
  cases h with
  | request hq h => exact .request hq h
  | outcome hlast h => exact .outcome hlast h _

/-- Whatever keeps a request from being made is not expected. -/
theorem isExpected_of_request {f : Failure} (h : c.request q = .error f) :
    isExpected (.error f : Except Failure α) = false := by
  obtain ⟨kind, message, rfl⟩ := exists_other_of_request h
  rfl

/-- An exchange that makes one request is judged by the last thing that came back for it. -/
theorem judged_of_last {x : Exchange α} (hq : asks q)
    (h : ∀ w, (∃ f, c.request q = .error f ∧ x.on w = (.error f, w)) ∨
      ∃ log e, w.Carries (log ++ [e]) (x.on w).2 ∧
        (isExpected (x.on w).1 = false ↔ e.2.IsUnusable reads)) : c.Judged asks reads x := by
  intro w
  rcases h w with ⟨f, hrequest, hx⟩ | ⟨log, e, hlog, he⟩
  · rw [hx]
    exact ⟨[], .refl w, fun _ => .request hq hrequest, fun _ => isExpected_of_request hrequest⟩
  · refine ⟨log ++ [e], hlog, fun hfalse => .outcome List.getLast?_concat (he.mp hfalse) _, fun hfails => ?_⟩
    generalize (x.on w).1 = result at he hfails ⊢
    cases hfails with
    | request hq' hrequest => exact isExpected_of_request hrequest
    | outcome hlast hunusable =>
      rw [List.getLast?_concat] at hlast
      obtain rfl := Option.some.inj hlast
      exact he.mpr hunusable

theorem judged_pure (a : α) : c.Judged asks reads (pure a) :=
  fun w => ⟨[], .refl w, nofun, nofun⟩

/-- What comes later is the last, if anything comes later. -/
theorem judged_bind {x : Exchange α} {k : α → Exchange β} (hx : c.Judged asks reads x)
    (hk : ∀ a, c.Judged asks reads (k a)) : c.Judged asks reads (x >>= k) := by
  intro w
  obtain ⟨log, hlog, hiff⟩ := hx w
  rw [Exchange.on_bind]
  generalize x.on w = result at hlog hiff ⊢
  obtain ⟨f | a, w'⟩ := result
  · exact ⟨log, hlog, hiff.trans ⟨Fails.castError, Fails.castError⟩⟩
  · obtain ⟨log', hlog', hiff'⟩ := hk a w'
    refine ⟨log ++ log', hlog.trans hlog', hiff'.trans ?_⟩
    show c.Fails asks reads log' ((k a).on w').1 ↔ c.Fails asks reads (log ++ log') ((k a).on w').1
    generalize ((k a).on w').1 = result
    constructor
    · rintro (⟨hq, hrequest⟩ | ⟨hlast, hunusable⟩)
      · exact .request hq hrequest
      · exact .outcome (by simp [List.getLast?_append, hlast]) hunusable _
    · rintro (⟨hq, hrequest⟩ | ⟨hlast, hunusable⟩)
      · exact .request hq hrequest
      · cases hlog'last : log'.getLast? with
        | some e' =>
          simp [List.getLast?_append, hlog'last] at hlast
          subst hlast
          exact .outcome hlog'last hunusable _
        | none =>
          -- nothing came back later, and what came back before was of use
          simp [List.getLast?_append, hlog'last] at hlast
          cases hiff.mpr (.outcome hlast hunusable _)

/-! ## Calls -/

/-- An answer to a query is decoded, or a failure is told in other words. -/
theorem judged_of_answers {x : Exchange Response} {y : Exchange α} {decode : Response → Exchange α}
    {holds : ByteArray → α → Prop} {tell : Failure → Failure} (hx : c.Answers q x)
    (hdecode : Decodes decode holds) (hq : asks q) (hclient : ∀ f, (tell f).isClient = f.isClient)
    (hother : ∀ kind message, tell (.other kind message) = .other kind message)
    (hok : ∀ {w r w'}, x.on w = (.ok r, w') → y.on w = (decode r).on w')
    (herror : ∀ {w f w'}, x.on w = (.error f, w') → y.on w = (.error (tell f), w')) :
    c.Judged asks (fun body => ∃ a, holds body a) y := by
  refine judged_of_last hq fun w => ?_
  rcases hx w with ⟨f, hrequest, hxw⟩ | ⟨log, e, hlog, he⟩
  · obtain ⟨kind, message, rfl⟩ := exists_other_of_request hrequest
    rw [herror hxw, hother]
    exact .inl ⟨_, hrequest, rfl⟩
  · refine .inr ⟨log, e, ?_⟩
    rcases hxw : x.on w with ⟨f | r, w'⟩
    · rw [hxw] at hlog he
      rw [herror hxw, ← isExpected_of_verdict (α := α) he.symm]
      show w.Carries _ w' ∧ ((tell f).isClient = false ↔ f.isClient = false)
      exact ⟨hlog, by rw [hclient]⟩
    · rw [hxw] at hlog he
      rw [hok hxw, hdecode.wire_eq, isUnusable_iff_of_verdict he.symm]
      exact ⟨hlog, hdecode.isExpected_iff r w'⟩

/-- What is decoded from the answer to a query. -/
theorem judged_decode {x : Exchange Response} {decode : Response → Exchange α}
    {holds : ByteArray → α → Prop} (hx : c.Answers q x) (hdecode : Decodes decode holds) (hq : asks q) :
    c.Judged asks (fun body => ∃ a, holds body a) (x >>= decode) :=
  judged_of_answers hx hdecode hq (fun _ => rfl) (fun _ _ => rfl) Exchange.on_bind_ok Exchange.on_bind_error

theorem isClient_tokenFailure (installation : Int) (f : Failure) :
    (tokenFailure installation f).isClient = f.isClient := by
  rw [tokenFailure.eq_def]
  split
  · split <;> rfl
  · rfl

theorem judged_createInstallationToken (claim : String) (installation : Int)
    (repositories : Option (List String)) (hq : asks (tokenQuery claim installation repositories)) :
    c.Judged asks (fun body => ∃ t, Holds (ObjectOf InstallationToken.decoder) body t)
      (c.createInstallationToken claim installation repositories) := by
  refine judged_of_answers answers_send (decodes_objectIn _) hq (isClient_tokenFailure installation)
    (fun _ _ => rfl) (fun hsend => ?_) fun hsend => ?_
  · rw [createInstallationToken, Exchange.on_bind_ok (Exchange.on_outcome _), hsend]
  · rw [createInstallationToken, Exchange.on_bind_ok (Exchange.on_outcome _), hsend]
    rfl

theorem judged_getPages {token : String} {repository : Repository} {number : Int}
    (hasks : ∀ page, asks (pageQuery token repository number page)) (page fuel : Nat) :
    c.Judged asks (fun body => ∃ files, Holds (ListOf ChangedFile.decoder) body files)
      (c.getPages token repository number page fuel) := by
  induction fuel generalizing page with
  | zero => exact judged_pure []
  | succ fuel ih =>
    refine judged_bind (judged_decode answers_get (decodes_listIn _) (hasks page)) fun files => ?_
    split
    · exact judged_pure files
    · exact judged_bind (ih (page + 1)) fun more => judged_pure (files ++ more)

end Client

/-- The queries that are asked for a call. -/
def Call.Asks : Call → Client.Query → Prop
  | exchange claim installation repositories, q => q = Client.tokenQuery claim installation repositories
  | pullsOf token repository sha, q => q = Client.pullsQuery token repository sha
  | filesOf token repository number, q => ∃ page, q = Client.pageQuery token repository number page
  | contentOf token repository path ref, q => q = Client.contentQuery token repository path ref
  | createRun token repository name sha, q => q = Client.createQuery token repository name sha
  | updateRun token repository run output conclusion, q =>
    q = Client.updateQuery token repository run output conclusion

/-- The bodies from which the answer to a call, or a part of it, can be read. -/
def Call.Reads : Call → ByteArray → Prop
  | exchange .., body => ∃ t, Holds (ObjectOf InstallationToken.decoder) body t
  | pullsOf .., body => ∃ pulls, Holds (ListOf PullRequest.decoder) body pulls
  | filesOf .., body => ∃ files, Holds (ListOf ChangedFile.decoder) body files
  | contentOf .., body => ∃ content, body = content
  | createRun .., body | updateRun .., body => ∃ run, Holds (ObjectOf CheckRun.decoder) body run

namespace Client

/-- **Every call ends in a value or in a client error, unless a request cannot be made or the last thing that
came back is of no use**; then it ends otherwise. The same holds for the question for a single pull
request. -/
theorem perform_expected (c : Client) :
    (∀ call, c.Judged call.Asks call.Reads (c.perform call)) ∧
      ∀ token repository number, c.Judged (· = pullQuery token repository number)
        (fun body => ∃ pull, Holds (ObjectOf PullRequest.decoder) body pull)
        (c.getPullRequest token repository number) := by
  constructor
  · intro call
    cases call with
    | exchange claim installation repositories =>
      exact judged_createInstallationToken claim installation repositories rfl
    | pullsOf token repository sha => exact judged_decode answers_get (decodes_listIn _) rfl
    | filesOf token repository number => exact fun w => judged_getPages (fun page => ⟨page, rfl⟩) 1 _ w
    | contentOf token repository path ref => exact judged_decode answers_get decodes_content rfl
    | createRun token repository name sha => exact judged_decode answers_send (decodes_objectIn _) rfl
    | updateRun token repository run output conclusion =>
      exact judged_decode answers_send (decodes_objectIn _) rfl
  · intro token repository number
    exact judged_decode answers_get (decodes_objectIn _) rfl

/-- A page that a proxy puts in the place of an answer: the call ends with an error of the JSON reader. -/
theorem getPullRequest_of_proxy :
    let w : Wire := ⟨[.response { status := 200, body := "<html>".toUTF8 }], [], []⟩
    let result := (((ofBase none).getPullRequest "t" ⟨"typst/packages"⟩ 3).on w).1
    isExpected result = false ∧ result.mapError Failure.kind = .error "JSONDecodeError" := by
  decide +kernel

end Client

end TypstLint.GitHub
