import TiBackup.Auth.PasswordRecord
import TiBackup.Model.Api.Auth
import TiBackup.Model.Reference
import TiBackup.Session.Throttle

/-!
# TiBackup.Auth.Login

**What the two public POST routes do**: first-run setup (`setup_cases`), login
(`login_cases`), and the login gate behind the latter (`logins_gated`), whose rules so hold
of the route (`throttled`). The stored record is read through `webSalt` and `webPasshash`.
-/

namespace TiBackup

open Lib Lib.Machine PasswordHash

variable {L : Library}

namespace Api

/-- The password of a request body. -/
def bodyPassword (req : Request) : String := ((parseBody req).get "password").toString

/-- The status of a response that is ready. -/
def replyStatus : Reply → Option StatusCode
  | .now r => some r.status
  | .later _ => none

/-! ### The stored record -/

/-- The salt `verify` is called with. -/
def webSalt (st : State L) : Bytes := toLatin1 (st.getValue "web/salt").toString

/-- The stored hash, empty before the first setup. -/
def webPasshash (st : State L) : String := (st.getValue "web/passhash").toString

theorem webSalt_congr {st st' : State L} (h : st'.conf = st.conf) : webSalt st' = webSalt st := by
  simp only [webSalt, State.getValue, h]

theorem webPasshash_congr {st st' : State L} (h : st'.conf = st.conf) :
    webPasshash st' = webPasshash st := by
  simp only [webPasshash, State.getValue, h]

theorem webSalt_setPassword (pw : String) (rawSalt : { raw : Bytes // raw.length = 16 })
    (st : State L) : webSalt (setPassword pw rawSalt st) = generateSalt rawSalt := by
  rw [webSalt, setPassword, State.getValue_setValue_of_ne _ (by decide),
    State.getValue_setValue_self, QVariant.toString_str, toLatin1_fromLatin1]

theorem webPasshash_setPassword (pw : String) (rawSalt : { raw : Bytes // raw.length = 16 })
    (st : State L) : webPasshash (setPassword pw rawSalt st) =
      hash L.digests pw (generateSalt rawSalt) kDefaultIterations := by
  rw [webPasshash, setPassword, State.getValue_setValue_self, QVariant.toString_str]

/-! ### What the three do -/

/-- First-run setup stores the password, and any other setup changes nothing. -/
theorem setup_cases (req : Request) (m : Moment) (st : State L) :
    ((setup req m st).1 = st ∧ replyStatus (setup req m st).2 ≠ some .ok) ∨
      (webPasshash st = "" ∧ replyStatus (setup req m st).2 = some .ok ∧
        (setup req m st).1.conf = (setPassword (bodyPassword req) m.rawSalt st).conf) := by
  unfold setup webPasshash
  split
  · exact .inl ⟨rfl, nofun⟩
  · next hempty =>
    simp only
    split
    · exact .inl ⟨rfl, nofun⟩
    · exact .inr ⟨by simpa using hempty, rfl, rfl⟩

theorem signIn_conf (m : Moment) (st : State L) : (signIn m st).1.conf = st.conf := rfl

/-- A sign-in, as its client sees it: the answer gives out the two tokens that were drawn, and
the table has a session with them. -/
structure GivesSession (m : Moment) (r : State L × Reply) : Prop where
  answer : r.2 = .now
    { status := .ok
      body := .obj [("ok", .bool true), ("csrf", .str (SessionStore.randomToken m.rawCsrf))]
      setCookie := some
        (buildSessionCookie r.1 (SessionStore.randomToken m.rawToken) r.1.secureCookies) }
  entry : r.1.sessions.sessions[SessionStore.randomToken m.rawToken]? =
    some { csrf := SessionStore.randomToken m.rawCsrf, lastSeen := m.created }

theorem givesSession_signIn (m : Moment) (st : State L) : GivesSession m (signIn m st) where
  answer := rfl
  entry := StringMap.get_insert_self _ _ _

/-- The store after a client asked to log in. -/
def asked (st : State L) (req : Request) (m : Moment) : SessionStore :=
  (st.sessions.loginAllowed m.now req.remoteAddress).1

/-- The login of a client that is let in, over the stored record. -/
theorem login_of_allowed {req : Request} {m : Moment} {st : State L}
    (h : (st.sessions.loginAllowed m.now req.remoteAddress).2 = true) :
    login req m st =
      if (webPasshash st).isEmpty = true then
        ({ st with sessions := asked st req m }, .now (errResp "setup required" .conflict))
      else if verify L.digests (bodyPassword req) (webSalt st) (webPasshash st) = false then
        ({ st with sessions := (asked st req m).loginFailed m.later req.remoteAddress },
          .now (errResp "invalid credentials" .unauthorized))
      else
        signIn m (if needsUpgrade (webPasshash st) = true then
          setPassword (bodyPassword req) m.rawSalt
            { st with sessions := (asked st req m).loginSucceeded req.remoteAddress }
        else { st with sessions := (asked st req m).loginSucceeded req.remoteAddress }) := by
  simp only [login, h, Bool.not_true, Bool.false_eq_true, if_false, Bool.not_eq_true']
  rfl

/-- The login of a client that is refused. -/
theorem login_of_refused {req : Request} {m : Moment} {st : State L}
    (h : (st.sessions.loginAllowed m.now req.remoteAddress).2 = false) :
    login req m st = ({ st with sessions := asked st req m },
      .now (errResp "too many failed attempts, try again later" .tooManyRequests)) := by
  simp only [login, h, Bool.not_false, if_true]
  rfl

/-- A login that is let in and verifies signs its client in. -/
theorem givesSession_login {req : Request} {m : Moment} {st : State L}
    (hallowed : (st.sessions.loginAllowed m.now req.remoteAddress).2 = true)
    (hverify : verify L.digests (bodyPassword req) (webSalt st) (webPasshash st) = true) :
    GivesSession m (login req m st) := by
  have hset : ¬(webPasshash st).isEmpty = true := by
    intro hempty
    simp [String.isEmpty_iff.mp hempty, verify] at hverify
  rw [login_of_allowed hallowed, if_neg hset, if_neg (by rw [hverify]; decide)]
  exact givesSession_signIn m _

/-- A login that is let in and verifies may rewrite the record with the password it
verified; any other login leaves the configuration alone. -/
theorem login_cases (req : Request) (m : Moment) (st : State L) :
    ((st.sessions.loginAllowed m.now req.remoteAddress).2 = false ∨
        verify L.digests (bodyPassword req) (webSalt st) (webPasshash st) = false) ∧
      (login req m st).1.conf = st.conf ∧ replyStatus (login req m st).2 ≠ some .ok ∨
    ((st.sessions.loginAllowed m.now req.remoteAddress).2 = true ∧
        verify L.digests (bodyPassword req) (webSalt st) (webPasshash st) = true) ∧
      (login req m st).1.conf =
        (if needsUpgrade (webPasshash st) = true then
          (setPassword (bodyPassword req) m.rawSalt st).conf else st.conf) ∧
      replyStatus (login req m st).2 = some .ok := by
  by_cases hallowed : (st.sessions.loginAllowed m.now req.remoteAddress).2 = true
  · rw [login_of_allowed hallowed]
    by_cases hempty : (webPasshash st).isEmpty = true
    · have hunset : verify L.digests (bodyPassword req) (webSalt st) (webPasshash st) = false := by
        simp [String.isEmpty_iff.mp hempty, verify]
      rw [if_pos hempty]
      exact .inl ⟨.inr hunset, rfl, fun h => by cases h⟩
    · rw [if_neg hempty]
      by_cases hwrong : verify L.digests (bodyPassword req) (webSalt st) (webPasshash st) = false
      · rw [if_pos hwrong]
        exact .inl ⟨.inr hwrong, rfl, fun h => by cases h⟩
      · rw [if_neg hwrong]
        refine .inr ⟨⟨hallowed, Bool.eq_true_of_not_eq_false hwrong⟩, ?_, rfl⟩
        rw [signIn_conf]
        split <;> rfl
  · rw [Bool.not_eq_true] at hallowed
    rw [login_of_refused hallowed]
    exact .inl ⟨.inl hallowed, rfl, fun h => by cases h⟩

/-! ### The login gate -/

/-- What the gate sees of a login. -/
def attemptOf (st : State L) (req : Request) (m : Moment) : SessionStore.LoginAttempt where
  clientId := req.remoteAddress
  now := m.now
  later := m.later
  verified := if (webPasshash st).isEmpty then none
    else some (verify L.digests (bodyPassword req) (webSalt st) (webPasshash st))

/-- A login moves the gates as one attempt does, and is refused when the attempt is. -/
theorem login_gate (req : Request) (m : Moment) (st : State L) :
    (login req m st).1.sessions.logins = (st.sessions.attempt (attemptOf st req m)).1.logins ∧
      (replyStatus (login req m st).2 = some .tooManyRequests ↔
        (st.sessions.attempt (attemptOf st req m)).2 = false) := by
  by_cases hallowed : (st.sessions.loginAllowed m.now req.remoteAddress).2 = true
  · rw [login_of_allowed hallowed, SessionStore.attempt_of_allowed (a := attemptOf st req m) hallowed]
    by_cases hempty : (webPasshash st).isEmpty = true
    · simp only [attemptOf, hempty, if_true]
      exact ⟨rfl, nofun, nofun⟩
    · rw [if_neg hempty]
      simp only [attemptOf, hempty, Bool.false_eq_true, if_false]
      cases hverify : verify L.digests (bodyPassword req) (webSalt st) (webPasshash st) with
      | false => exact ⟨rfl, nofun, nofun⟩
      | true =>
        simp only [Bool.true_eq_false, if_false]
        refine ⟨?_, nofun, nofun⟩
        split <;> rfl
  · rw [Bool.not_eq_true] at hallowed
    rw [login_of_refused hallowed, SessionStore.attempt_of_refused (a := attemptOf st req m) hallowed]
    exact ⟨congrArg SessionStore.logins (SessionStore.loginAllowed_refused hallowed),
      fun _ => rfl, fun _ => rfl⟩

/-- The daemon, as far as logins are concerned; the output is whether the gate let the
request in. -/
def logins (L : Library) : Machine (State L) (Request × Moment) Bool where
  step st e := ((login e.1 e.2 st).1,
    decide (replyStatus (login e.1 e.2 st).2 ≠ some .tooManyRequests))

/-- The attempts the login requests of a run come down to. -/
def attempts : State L → List (Request × Moment) → List SessionStore.LoginAttempt
  | _, [] => []
  | st, e :: es => attemptOf st e.1 e.2 :: attempts (login e.1 e.2 st).1 es

/-- **The login route is the gate**: a run of login requests lets in what the gate
lets in on the attempts they come down to, and leaves the same gates behind. -/
theorem logins_gated {st : State L} {s : SessionStore} (h : st.sessions.logins = s.logins)
    (es : List (Request × Moment)) :
    (logins L).outputs st es = SessionStore.gates.outputs s (attempts st es) ∧
      ((logins L).run st es).sessions.logins =
        (SessionStore.gates.run s (attempts st es)).logins := by
  induction es generalizing st s with
  | nil => exact ⟨rfl, h⟩
  | cons e es ih =>
    obtain ⟨hlogins, hrefused⟩ := login_gate e.1 e.2 st
    obtain ⟨hnext, hout⟩ := SessionStore.attempt_congr h (attemptOf st e.1 e.2)
    have hans : (logins L).out st e = SessionStore.gates.out s (attemptOf st e.1 e.2) := by
      rw [out, out, logins, SessionStore.gates, ← hout, Bool.eq_iff_iff, decide_eq_true_iff, Ne,
        hrefused, Bool.not_eq_false]
    obtain ⟨houts, hrun⟩ := ih (hlogins.trans hnext)
    rw [attempts, outputs_cons, outputs_cons, hans]
    exact ⟨congrArg _ houts, hrun⟩

end Api

namespace SessionStore

/-- **Login throttling.** The gate keeps its rules in every run of requests whose clock
readings never go back: a client is refused exactly during the 300 seconds after its last
lock event; `k` times 300 seconds without a success of the client hold at most `5 k` of its
failures; a request that is refused changes nothing, so no lock grows; and the answers to
one client are those of the run without the requests of all others. And a daemon that has
counted nothing yet lets in and refuses the logins that come down to these requests just so,
and has the same gates afterwards. -/
theorem throttled {ttl : Int} {as : List LoginAttempt}
    (horder : InOrder LoginAttempt.now LoginAttempt.later 0 as) :
    Throttled ttl as ∧
    ∀ (L : Library) (st : State L) (es : List (Request × Moment)), st.sessions.logins = ∅ →
      Api.attempts st es = as →
      (Api.logins L).outputs st es = gates.outputs { ttl := ttl } as ∧
        ((Api.logins L).run st es).sessions.logins = (gates.run { ttl := ttl } as).logins := by
  refine ⟨gates_throttled horder, ?_⟩
  rintro L st es hnew rfl
  exact Api.logins_gated hnew es

/-- Five failures, a refusal, a try of another client, and one when the lock is over. -/
def lockoutRun : List LoginAttempt :=
  List.replicate 5 ⟨"10.0.0.1", 0, 0, some false⟩ ++
    [⟨"10.0.0.1", 299, 299, some false⟩, ⟨"10.0.0.2", 299, 299, some false⟩,
      ⟨"10.0.0.1", 300, 301, some false⟩]

/-- A login with a wrong password. -/
def wrongLogin (remoteAddress : String) (now later : Int) : Request × Moment :=
  ({ Reference.request (.obj [("password", .str "guess")]) with remoteAddress },
    { Reference.moment "" with now, later })

/-- The requests. -/
def lockoutLogins : List (Request × Moment) :=
  List.replicate 5 (wrongLogin "10.0.0.1" 0 0) ++
    [wrongLogin "10.0.0.1" 299 299, wrongLogin "10.0.0.2" 299 299, wrongLogin "10.0.0.1" 300 301]

/-- A daemon that nobody can log in to: its record has no salt. -/
def guessedState : State Reference.library :=
  Reference.initial.setValue "web/passhash" (.str "record")

theorem throttled_lockoutRun :
    InOrder LoginAttempt.now LoginAttempt.later 0 lockoutRun ∧
    (∀ c now, 301 ≤ now →
      (((gates.run { ttl := 3600 } lockoutRun).loginAllowed now c).2 = false ↔
        ∃ t, lastLock (verifications c lockoutRun
            (gates.outputs { ttl := 3600 } lockoutRun)).reverse = some t ∧ now < t + 300)) ∧
    (∀ c T, NoSuccessIn T (300 * (2 : Nat))
        (verifications c lockoutRun (gates.outputs { ttl := 3600 } lockoutRun)) →
      failuresIn T (300 * (2 : Nat))
        (verifications c lockoutRun (gates.outputs { ttl := 3600 } lockoutRun)) ≤ 5 * 2) ∧
    (Api.logins Reference.library).outputs guessedState lockoutLogins =
      List.replicate 5 true ++ [false, true, true] := by
  have horder : InOrder LoginAttempt.now LoginAttempt.later 0 lockoutRun := by
    simp [lockoutRun, List.replicate]
  obtain ⟨hrules, hroute⟩ := @throttled 3600 lockoutRun horder
  have hgates : gates.outputs { ttl := 3600 } lockoutRun =
      List.replicate 5 true ++ [false, true, true] := by
    decide +kernel
  refine ⟨horder, hrules.refused_iff, fun c T => hrules.failures_le c T 2 (by decide), ?_⟩
  rw [(hroute Reference.library guessedState lockoutLogins rfl rfl).1, hgates]

end SessionStore

end TiBackup
