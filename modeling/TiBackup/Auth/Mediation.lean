import TiBackup.Auth.Checks
import TiBackup.Auth.Login

/-!
# TiBackup.Auth.Mediation

**Every route checks before it acts.** The about forty handlers fall into three
shapes, and each route is shown to have its shape:

* `handle_guarded`: all but the four public routes validate the session first;
* `handle_csrf`: those that answer to POST, PUT or DELETE then check the CSRF token;
* `handle_reads`: those that answer to GET or to every method only read, and the work
  they leave to a worker only reads too.

What a handler does behind its checks does not matter here; of a reading one we only
see that its answer leaves nothing to do that writes. The two public POST routes are
treated on their own (`setup_changes`, `login_changes`).
-/

namespace TiBackup

open Lib

variable {L : Library}

/-- The routes that can be reached without a session. -/
def Route.isPublic : Route → Bool
  | .health | .authStatus | .setup | .login => true
  | _ => false

/-- The routes that are registered for POST, PUT or DELETE. -/
def Route.changes (r : Route) : Bool :=
  match r.method with
  | some .Post | some .Put | some .Delete => true
  | some .Get | none => false

namespace Api

/-! ### The shape of each route -/

/-- The work is over at once, and whenever it runs it leaves the state alone. -/
def Benign (L : Library) (reply : Reply) : Prop := ∀ st : State L, (finish reply st).1 = st

theorem benign_now (r : Response) : Benign L (.now r) := fun _ => rfl

theorem benign_future (r : Response) : Benign L (.future r) := fun _ => rfl

theorem benign_ite {c : Prop} [Decidable c] {a b : Reply} (ha : Benign L a) (hb : Benign L b) :
    Benign L (if c then a else b) := by
  split
  · exact ha
  · exact hb

/-- A refusal is given at once or as a future. -/
def Delivers (d : Response → Reply) : Prop := d = .now ∨ d = .future

theorem Delivers.finish {d : Response → Reply} (h : Delivers d) (r : Response) (st : State L) :
    finish (d r) st = (st, r) := by
  rcases h with rfl | rfl <;> rfl

theorem handle_guarded {r : Route} (h : r.isPublic = false) :
    ∃ d k, Delivers d ∧ handle (L := L) r = withAuth d k := by
  cases r with
  | health | authStatus | setup | login => cases h
  | getDatastores | getDatastoreGroups | sshBrowse | testMail | pbsTest | sshTest | sshMkdir =>
    exact ⟨.future, _, .inr rfl, rfl⟩
  | _ => exact ⟨.now, _, .inl rfl, rfl⟩

theorem handle_csrf {r : Route} (hpublic : r.isPublic = false) (h : r.changes = true) :
    ∃ d k, Delivers d ∧ handle (L := L) r = withAuth d (withCsrf d k) := by
  cases r with
  | setup | login => cases hpublic
  | testMail | pbsTest | sshTest | sshMkdir => exact ⟨.future, _, .inr rfl, rfl⟩
  | logout | putPrefs | postJob | putJob | deleteJob | startJob | postPbs | putPbs | deletePbs
  | postSsh | putSsh | deleteSsh | mkdir | putScript | mountPartition | umountPartition =>
    exact ⟨.now, _, .inl rfl, rfl⟩
  | _ => cases h

/-- The public routes for every method. -/
theorem handle_publicReads {r : Route} (h : r = .health ∨ r = .authStatus) (st : State L)
    (req : Request) (m : Moment) :
    State.SameButSessions st (handle r req m st).1 ∧ Benign L (handle r req m st).2 := by
  rcases h with rfl | rfl
  · exact ⟨rfl, benign_now _⟩
  · exact ⟨State.sameButSessions_validated st m.now req, benign_now _⟩

theorem handle_reads {r : Route} (hpublic : r.isPublic = false) (h : r.changes = false) :
    ∃ d f, Delivers d ∧ handle (L := L) r = withAuth d (reads f) ∧
      ∀ req st, Benign L (f req st) := by
  cases r with
  | health | authStatus => cases hpublic
  | getPrefs | getJobs | getDevices | getPbsList | getSshList | mainLog | runLogs | rsyncLogs =>
    exact ⟨.now, _, .inl rfl, rfl, fun _ _ => benign_now _⟩
  | getJob | getPbs | getSsh | browse =>
    refine ⟨.now, _, .inl rfl, rfl, ?_⟩
    intro _ _
    split
    · exact benign_now _
    · exact benign_now _
  | getPartition =>
    exact ⟨.now, _, .inl rfl, rfl, fun _ _ => benign_ite (benign_now _) (benign_now _)⟩
  | runLog | getScript =>
    refine ⟨.now, _, .inl rfl, rfl, fun _ _ => benign_ite (benign_now _) ?_⟩
    split
    · exact benign_now _
    · exact benign_now _
  | rsyncLog =>
    refine ⟨.now, _, .inl rfl, rfl, fun _ _ =>
      benign_ite (benign_now _) (benign_ite (benign_now _) ?_)⟩
    dsimp only
    split
    · exact benign_now _
    · exact benign_now _
  | getDatastores | getDatastoreGroups | sshBrowse =>
    refine ⟨.future, _, .inr rfl, rfl, ?_⟩
    intro _ _
    split
    · exact benign_future _
    · exact fun _ => rfl
  | _ => cases h

/-! ### Refusals -/

/-- Without a live session: 401, and only the session table is touched. -/
theorem unauthorized_of_no_session {r : Route} (hpublic : r.isPublic = false) {st : State L}
    {req : Request} {m : Moment} (h : ∀ s, ¬LiveSession st m.now req s) :
    (handle r req m st).1 = st.validated m.now req ∧
      ∀ later : State L, finish (handle r req m st).2 later = (later, unauthorized) := by
  obtain ⟨d, k, hd, hr⟩ := handle_guarded (L := L) hpublic
  rw [hr, withAuth_of_not_live h]
  exact ⟨rfl, fun later => hd.finish unauthorized later⟩

/-- Without the session's CSRF token: 401 or 403, and only the session table is
touched. -/
theorem refused_of_not_verified {r : Route} (hpublic : r.isPublic = false)
    (hchanges : r.changes = true) {st : State L} {req : Request} {m : Moment}
    (h : ¬CsrfVerified st m.now req) :
    (handle r req m st).1 = st.validated m.now req ∧
      ∃ e, (e = unauthorized ∨ e = forbidden) ∧
        ∀ later : State L, finish (handle r req m st).2 later = (later, e) := by
  obtain ⟨d, k, hd, hr⟩ := handle_csrf (L := L) hpublic hchanges
  obtain ⟨e, he, hrun⟩ := withCsrf_of_not_verified h d k
  rw [hr, hrun]
  exact ⟨rfl, e, he, fun later => hd.finish e later⟩

/-- The routes that take no CSRF token never change anything. -/
theorem reads_changes_nothing {r : Route} (hchanges : r.changes = false) (st : State L)
    (req : Request) (m : Moment) :
    State.SameButSessions st (handle r req m st).1 ∧ Benign L (handle r req m st).2 := by
  cases hpublic : r.isPublic with
  | true =>
    refine handle_publicReads ?_ st req m
    cases r with
    | health => exact .inl rfl
    | authStatus => exact .inr rfl
    | setup | login => cases hchanges
    | _ => cases hpublic
  | false =>
    obtain ⟨d, f, hd, hr, hf⟩ := handle_reads (L := L) hpublic hchanges
    rw [hr]
    by_cases hlive : ∃ s, LiveSession st m.now req s
    · obtain ⟨s, hs⟩ := hlive
      rw [withAuth_of_live hs]
      exact ⟨State.sameButSessions_validated st m.now req, hf req _⟩
    · rw [withAuth_of_not_live (not_exists.mp hlive)]
      exact ⟨State.sameButSessions_validated st m.now req, fun later => by rw [hd.finish]⟩

/-! ### Setup and login -/

theorem sameButSessions_signIn (m : Moment) (st : State L) :
    State.SameButSessions st (signIn m st).1 := rfl

/-- Setup changes something only while `web/passhash` is empty: it stores the record
of the password. -/
theorem setup_changes (st : State L) (req : Request) (m : Moment) :
    State.SameButSessions st (setup req m st).1 ∨
      webPasshash st = "" ∧
        State.SameButSessions (setPassword (bodyPassword req) m.rawSalt st) (setup req m st).1 := by
  unfold setup webPasshash
  split
  · exact .inl rfl
  · next hempty =>
    simp only
    split
    · exact .inl rfl
    · refine .inr ⟨?_, sameButSessions_signIn m _⟩
      simpa using hempty

/-- Login changes something only if the password verifies: it stores the record of
that password anew. -/
theorem login_changes (st : State L) (req : Request) (m : Moment) :
    State.SameButSessions st (login req m st).1 ∨
      PasswordHash.verify L.digests (bodyPassword req) (webSalt st) (webPasshash st) = true ∧
        State.SameButSessions (setPassword (bodyPassword req) m.rawSalt st) (login req m st).1 := by
  by_cases hallowed : (st.sessions.loginAllowed m.now req.remoteAddress).2 = true
  · rw [login_of_allowed hallowed]
    split
    · exact .inl rfl
    · split
      · exact .inl rfl
      · next hverify =>
        split
        · exact .inr ⟨Bool.eq_true_of_not_eq_false hverify, rfl⟩
        · exact .inl rfl
  · rw [Bool.not_eq_true] at hallowed
    rw [login_of_refused hallowed]
    exact .inl rfl

theorem benign_setup (st : State L) (req : Request) (m : Moment) : Benign L (setup req m st).2 := by
  unfold setup
  split
  · exact benign_now _
  · dsimp only
    split
    · exact benign_now _
    · exact benign_now _

theorem benign_login (st : State L) (req : Request) (m : Moment) : Benign L (login req m st).2 := by
  by_cases hallowed : (st.sessions.loginAllowed m.now req.remoteAddress).2 = true
  · rw [login_of_allowed hallowed]
    split
    · exact benign_now _
    · split
      · exact benign_now _
      · exact benign_now _
  · rw [Bool.not_eq_true] at hallowed
    rw [login_of_refused hallowed]
    exact benign_now _

/-! ### The whole statement -/

/-- **Complete mediation.** In every state, for every route and request: without a live
session the answer is 401; a route that can change something answers 401 or 403 unless
the request carries the CSRF token of the session it presents; in these cases nothing
changes but that the session may be refreshed, or dropped as expired. Routes that take
no CSRF token change nothing, whatever is asked, and the two public POST routes change
something only as first-run setup or as a login whose password verifies. -/
theorem complete_mediation (st : State L) (r : Route) (req : Request) (m : Moment) :
    (r.isPublic = false → (∀ s, ¬LiveSession st m.now req s) →
      State.SameButSessions st (handle r req m st).1 ∧
      SessionsKept st (handle r req m st).1 m.now req ∧
      ∀ later : State L, (finish (handle r req m st).2 later).1 = later ∧
        (finish (handle r req m st).2 later).2.status = .unauthorized) ∧
    (r.isPublic = false → r.changes = true → ¬CsrfVerified st m.now req →
      State.SameButSessions st (handle r req m st).1 ∧
      SessionsKept st (handle r req m st).1 m.now req ∧
      ∀ later : State L, (finish (handle r req m st).2 later).1 = later ∧
        ((finish (handle r req m st).2 later).2.status = .unauthorized ∨
          (finish (handle r req m st).2 later).2.status = .forbidden)) ∧
    (r.changes = false →
      State.SameButSessions st (handle r req m st).1 ∧
      ∀ later : State L, (finish (handle r req m st).2 later).1 = later) ∧
    (r = .setup ∨ r = .login →
      (State.SameButSessions st (handle r req m st).1 ∨
        State.SameButSessions (setPassword (bodyPassword req) m.rawSalt st) (handle r req m st).1 ∧
        (r = .setup ∧ webPasshash st = "" ∨
          r = .login ∧ PasswordHash.verify L.digests (bodyPassword req) (webSalt st)
            (webPasshash st) = true)) ∧
      ∀ later : State L, (finish (handle r req m st).2 later).1 = later) := by
  refine ⟨?_, ?_, ?_, ?_⟩
  · intro hpublic hno
    obtain ⟨hst, hanswer⟩ := unauthorized_of_no_session hpublic hno
    rw [hst]
    refine ⟨State.sameButSessions_validated st m.now req, sessionsKept_validated st m.now req, ?_⟩
    intro later
    rw [hanswer]
    exact ⟨rfl, rfl⟩
  · intro hpublic hchanges hno
    obtain ⟨hst, e, he, hanswer⟩ := refused_of_not_verified hpublic hchanges hno
    rw [hst]
    refine ⟨State.sameButSessions_validated st m.now req, sessionsKept_validated st m.now req, ?_⟩
    intro later
    rw [hanswer]
    exact ⟨rfl, he.imp (fun h => by rw [h]; rfl) (fun h => by rw [h]; rfl)⟩
  · intro hchanges
    exact reads_changes_nothing hchanges st req m
  · rintro (rfl | rfl)
    · refine ⟨(setup_changes st req m).imp_right fun h => ⟨h.2, .inl ⟨rfl, h.1⟩⟩, ?_⟩
      exact benign_setup st req m
    · refine ⟨(login_changes st req m).imp_right fun h => ⟨h.2, .inr ⟨rfl, h.1⟩⟩, ?_⟩
      exact benign_login st req m

end Api

end TiBackup
