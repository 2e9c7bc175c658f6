import TiBackup.Auth.Mediation
import TiBackup.Jobs.TaskCheck
import TiBackup.Model.Process

/-!
# TiBackup.Session.Daemon

**What the process does to its session table**, event by event. Setup and login enter a
session when they are answered with ok, logout takes one away, every other route
but `/api/health` validates the one it is presented, and the rest of the process
leaves the table alone, save that a restart empties it (`tableStep_serve`,
`sessions_next_of_quiet`).
-/

namespace TiBackup

open Lib Lib.Machine

variable {L : Library}

/-- The routes that look at the session a request presents. -/
def Route.validates : Route → Bool
  | .health | .setup | .login => false
  | _ => true

namespace Api

/-! ### The body of a handler -/

/-- The handler body leaves the session store alone. -/
def KeepsSessions (k : Handler L) : Prop := ∀ req m st, (k req m st).1.sessions = st.sessions

/-- Behind both checks such a body only validates. -/
theorem sessions_guarded {k : Handler L} (hk : KeepsSessions k) (d : Response → Reply)
    (req : Request) (m : Moment) (st : State L) :
    (withAuth d (withCsrf d k) req m st).1.sessions = (st.validated m.now req).sessions := by
  rcases guarded_cases st req m d k with ⟨-, hrun⟩ | ⟨e, -, hrun⟩
  · rw [hrun, hk]
  · rw [hrun]

theorem sessions_setIfPresent (o : Json.Fields) (field key : String) (conv : Json → QVariant)
    (st : State L) : (setIfPresent o field key conv st).sessions = st.sessions := by
  unfold setIfPresent
  split <;> rfl

theorem sessions_setPaths (o : Json.Fields) (st : State L) :
    (setPaths o st).sessions = st.sessions := by
  simp only [setPaths, List.foldl_cons, List.foldl_nil, sessions_setIfPresent]

theorem sessions_setSmtp (o : Json.Fields) (st : State L) :
    (setSmtp o st).sessions = st.sessions := by
  unfold setSmtp
  dsimp only
  split
  · split
    · simp only [sessions_setIfPresent]
    · simp only [State.setValue, sessions_setIfPresent]
  · simp only [sessions_setIfPresent]

theorem sessions_saveScriptConfined (path content : String) (st : State L) :
    (saveScriptConfined path content st).1.sessions = st.sessions := by
  unfold saveScriptConfined
  dsimp only
  split
  · rfl
  · split <;> rfl

/-- The routes that change something else leave the session check as it is. -/
theorem sessions_changes {r : Route} (hpublic : r.isPublic = false) (hchanges : r.changes = true)
    (hlogout : r ≠ .logout) (req : Request) (m : Moment) (st : State L) :
    (handle r req m st).1.sessions = (st.validated m.now req).sessions := by
  cases r with
  | logout => exact absurd rfl hlogout
  | putPrefs =>
    refine sessions_guarded ?_ .now req m st
    intro req m st
    dsimp only
    split <;> split <;> split <;> simp only [sessions_setSmtp, sessions_setPaths] <;> rfl
  | putScript =>
    refine sessions_guarded ?_ .now req m st
    intro req m st
    dsimp only
    split
    · exact sessions_saveScriptConfined _ _ st
    · exact sessions_saveScriptConfined _ _ st
  | postJob | putJob | deleteJob | startJob | postPbs | putPbs | deletePbs | postSsh | putSsh
  | deleteSsh | mkdir | mountPartition | umountPartition =>
    refine sessions_guarded ?_ .now req m st
    intro req m st
    dsimp only
    repeat' split
    all_goals rfl
  | testMail | pbsTest | sshTest | sshMkdir =>
    refine sessions_guarded ?_ .future req m st
    intro req m st
    dsimp only
    repeat' split
    all_goals rfl
  | setup | login => cases hpublic
  | _ => cases hchanges

/-- The routes that change nothing validate, all but one. -/
theorem sessions_reads {r : Route} (hhealth : r ≠ .health) (hchanges : r.changes = false)
    (req : Request) (m : Moment) (st : State L) :
    (handle r req m st).1.sessions = (st.validated m.now req).sessions := by
  cases hpublic : r.isPublic with
  | true =>
    cases r with
    | health => exact absurd rfl hhealth
    | authStatus => rfl
    | setup | login => cases hchanges
    | _ => cases hpublic
  | false =>
    obtain ⟨d, f, -, hr, -⟩ := handle_reads (L := L) hpublic hchanges
    rw [hr]
    by_cases hlive : ∃ s, LiveSession st m.now req s
    · obtain ⟨s, hs⟩ := hlive
      rw [withAuth_of_live hs]
      rfl
    · rw [withAuth_of_not_live (not_exists.mp hlive)]

/-! ### Setup, login, logout -/

/-- The same sessions with the same TTL; the login gates may differ. -/
def SameTable (a b : SessionStore) : Prop := a.sessions = b.sessions ∧ a.ttl = b.ttl

theorem sameTable_loginAllowed (s : SessionStore) (now : Int) (clientId : String) :
    SameTable (s.loginAllowed now clientId).1 s := by
  unfold SessionStore.loginAllowed
  split
  · exact ⟨rfl, rfl⟩
  · split
    · exact ⟨rfl, rfl⟩
    · split <;> exact ⟨rfl, rfl⟩

theorem sameTable_loginFailed (s : SessionStore) (now : Int) (clientId : String) :
    SameTable (s.loginFailed now clientId) s := by
  unfold SessionStore.loginFailed
  dsimp only
  split <;> exact ⟨rfl, rfl⟩

theorem SameTable.trans {a b c : SessionStore} (h : SameTable a b) (h' : SameTable b c) :
    SameTable a c := ⟨h.1.trans h'.1, h.2.trans h'.2⟩

/-- A login that is answered with ok enters a session. -/
theorem login_table (req : Request) (m : Moment) (st : State L) :
    (Answered (login req m st) ∧ ∃ s, SameTable s st.sessions ∧
      (login req m st).1.sessions = (s.createSession m.rawToken m.rawCsrf m.later m.created).1) ∨
    (¬Answered (login req m st) ∧ SameTable (login req m st).1.sessions st.sessions) := by
  have hasked : SameTable (asked st req m) st.sessions := sameTable_loginAllowed _ _ _
  by_cases hallowed : (st.sessions.loginAllowed m.now req.remoteAddress).2 = true
  · rw [login_of_allowed hallowed]
    split
    · exact .inr ⟨nofun, hasked⟩
    · split
      · exact .inr ⟨nofun, (sameTable_loginFailed _ _ _).trans hasked⟩
      · refine .inl ⟨rfl, (asked st req m).loginSucceeded req.remoteAddress, hasked, ?_⟩
        split <;> rfl
  · rw [Bool.not_eq_true] at hallowed
    rw [login_of_refused hallowed]
    exact .inr ⟨nofun, hasked⟩

/-- So does a setup. -/
theorem setup_table (req : Request) (m : Moment) (st : State L) :
    (Answered (setup req m st) ∧ (setup req m st).1.sessions =
      (st.sessions.createSession m.rawToken m.rawCsrf m.later m.created).1) ∨
    (¬Answered (setup req m st) ∧ (setup req m st).1.sessions = st.sessions) := by
  unfold setup
  split
  · exact .inr ⟨nofun, rfl⟩
  · dsimp only
    split
    · exact .inr ⟨nofun, rfl⟩
    · exact .inl ⟨rfl, rfl⟩

theorem logout_table (req : Request) (m : Moment) (st : State L) :
    (Answered (logout req m st) ∧ (logout req m st).1.sessions =
      (st.validated m.now req).sessions.drop (sessionToken req)) ∨
    (¬Answered (logout req m st) ∧
      (logout req m st).1.sessions = (st.validated m.now req).sessions) := by
  unfold logout
  rcases guarded_cases st req m .now _ with ⟨-, hrun⟩ | ⟨e, he, hrun⟩
  · rw [hrun]
    exact .inl ⟨rfl, rfl⟩
  · rw [hrun]
    refine .inr ⟨?_, rfl⟩
    rcases he with rfl | rfl <;> nofun

/-! ### One request -/

/-- The request signs somebody in. -/
def SignsIn (st : State L) (c : Call) : Prop :=
  (c.route = .setup ∨ c.route = .login) ∧ Answered (serve c st)

/-- The request signs out the session it presents. -/
def SignsOut (st : State L) (c : Call) : Prop := c.route = .logout ∧ Answered (serve c st)

/-- The session a request enters. -/
def newSession (m : Moment) : Session :=
  { csrf := SessionStore.randomToken m.rawCsrf, lastSeen := m.created }

/-- What a request does to the session table. -/
inductive TableStep (st : State L) (c : Call) (table : StringMap Session) : Prop
  | signedIn (h : SignsIn st c) (entry : ∀ t, table[t]? =
      if t = SessionStore.randomToken c.moment.rawToken then some (newSession c.moment)
      else SessionStore.alive st.sessions.ttl c.moment.later st.sessions.sessions[t]?)
  | signedOut (h : SignsOut st c) (entry : ∀ t, table[t]? =
      if t = sessionToken c.req then none else st.sessions.sessions[t]?)
  | validated (h : c.route.validates = true) (hstay : ¬SignsOut st c) (entry : ∀ t, table[t]? =
      if t = sessionToken c.req ∧ sessionToken c.req ≠ "" then
        (SessionStore.alive st.sessions.ttl c.moment.now st.sessions.sessions[t]?).map
          fun s => { s with lastSeen := c.moment.now }
      else st.sessions.sessions[t]?)
  | left (h : c.route.validates = false) (hstay : ¬SignsIn st c)
      (entry : table = st.sessions.sessions)

/-- A request that only validates. -/
theorem tableStep_of_validated {c : Call} {st : State L} (h : c.route.validates = true)
    (hstay : ¬SignsOut st c)
    (hsessions : (serve c st).1.sessions = (st.validated c.moment.now c.req).sessions) :
    TableStep st c (serve c st).1.sessions.sessions ∧
      (serve c st).1.sessions.ttl = st.sessions.ttl := by
  rw [hsessions]
  exact ⟨.validated h hstay fun t => SessionStore.sessions_validate _ _ _ t,
    SessionStore.ttl_validate _ _ _⟩

theorem tableStep_setup (req : Request) (m : Moment) (st : State L) :
    TableStep st ⟨.setup, req, m⟩ (setup req m st).1.sessions.sessions ∧
      (setup req m st).1.sessions.ttl = st.sessions.ttl := by
  rcases setup_table req m st with ⟨hanswered, hrun⟩ | ⟨hno, hrun⟩
  · rw [hrun]
    exact ⟨.signedIn ⟨.inl rfl, hanswered⟩ fun t => SessionStore.sessions_createSession _ _ _ _ _ t,
      rfl⟩
  · rw [hrun]
    exact ⟨.left rfl (fun h => hno h.2) rfl, rfl⟩

theorem tableStep_login (req : Request) (m : Moment) (st : State L) :
    TableStep st ⟨.login, req, m⟩ (login req m st).1.sessions.sessions ∧
      (login req m st).1.sessions.ttl = st.sessions.ttl := by
  rcases login_table req m st with ⟨hanswered, s, ⟨hsessions, httl⟩, hrun⟩ | ⟨hno, hsame⟩
  · rw [hrun]
    refine ⟨.signedIn ⟨.inr rfl, hanswered⟩ fun t => ?_, httl⟩
    rw [SessionStore.sessions_createSession, hsessions, httl]
    rfl
  · exact ⟨.left rfl (fun h => hno h.2) hsame.1, hsame.2⟩

theorem tableStep_logout (req : Request) (m : Moment) (st : State L) :
    TableStep st ⟨.logout, req, m⟩ (logout req m st).1.sessions.sessions ∧
      (logout req m st).1.sessions.ttl = st.sessions.ttl := by
  rcases logout_table req m st with ⟨hanswered, hrun⟩ | ⟨hno, hrun⟩
  · rw [hrun]
    refine ⟨.signedOut ⟨rfl, hanswered⟩ fun t => ?_, SessionStore.ttl_validate _ _ _⟩
    rw [SessionStore.sessions_drop]
    split
    · rfl
    · next ht => exact (SessionStore.sessions_validate _ _ _ t).trans (if_neg fun h => ht h.1)
  · exact tableStep_of_validated (c := ⟨.logout, req, m⟩) rfl (fun h => hno h.2) hrun

/-- **One request, one of the four.** -/
theorem tableStep_serve (c : Call) (st : State L) :
    TableStep st c (serve c st).1.sessions.sessions ∧
      (serve c st).1.sessions.ttl = st.sessions.ttl := by
  by_cases hhealth : c.route = .health
  · obtain ⟨r, req, m⟩ := c
    obtain rfl : r = .health := hhealth
    exact ⟨.left rfl (by rintro ⟨h | h, -⟩ <;> cases h) rfl, rfl⟩
  by_cases hlogout : c.route = .logout
  · obtain ⟨r, req, m⟩ := c
    obtain rfl : r = .logout := hlogout
    exact tableStep_logout req m st
  have hstay : ¬SignsOut st c := fun h => hlogout h.1
  cases hchanges : c.route.changes with
  | false =>
    have hvalidates : c.route.validates = true := by
      cases hr : c.route with
      | health => exact absurd hr hhealth
      | setup | login => rw [hr] at hchanges; cases hchanges
      | _ => rfl
    exact tableStep_of_validated hvalidates hstay (sessions_reads hhealth hchanges c.req c.moment st)
  | true =>
    cases hpublic : c.route.isPublic with
    | false =>
      have hvalidates : c.route.validates = true := by
        cases hr : c.route with
        | health | setup | login => rw [hr] at hpublic; cases hpublic
        | _ => rfl
      exact tableStep_of_validated hvalidates hstay
        (sessions_changes hpublic hchanges hlogout c.req c.moment st)
    | true =>
      obtain ⟨r, req, m⟩ := c
      cases r with
      | setup => exact tableStep_setup req m st
      | login => exact tableStep_login req m st
      | health | authStatus => cases hchanges
      | _ => cases hpublic

/-- A worker has no business with the sessions. -/
theorem sessions_runWork (w : Work) (st : State L) : (runWork w st).1.sessions = st.sessions := by
  cases w with
  | sshTest srv uuid =>
    simp only [runWork, sshTestDone]
    split <;> rfl
  | _ => rfl

end Api

/-! ### The other events -/

namespace DiskMain

theorem sessions_onTaskCheck (nowMs : Int) (d : DiskMain L) :
    (onTaskCheck nowMs d).1.state.sessions = d.state.sessions := by
  rw [(onTaskCheck_starts nowMs d).others]

theorem sessions_onDiskAdded (disk : DeviceDisk) (st : State L) :
    (onDiskAdded disk st).1.sessions = st.sessions := by
  rw [(onDiskAdded_starts disk st).others]

theorem sessions_restart (tls : Bool) (nowMs : Int) (d : DiskMain L) :
    (restart tls nowMs d).1.state.sessions = { ttl := sessionTtl d.state } :=
  sessions_onTaskCheck nowMs _

end DiskMain

namespace Process

/-- Nothing that has to do with sessions. -/
def Quiet : Happening → Prop
  | .main (.request _) | .main (.restart _ _) | .handshake _ _ => False
  | _ => True

theorem Happening.cases (e : Happening) :
    Quiet e ∨ (∃ c, e = .main (.request c)) ∨ (∃ cookie now, e = .handshake cookie now) ∨
      ∃ tls nowMs, e = .main (.restart tls nowMs) := by
  cases e with
  | main e =>
    cases e with
    | request c => exact .inr (.inl ⟨c, rfl⟩)
    | restart tls nowMs => exact .inr (.inr (.inr ⟨tls, nowMs, rfl⟩))
    | _ => exact .inl trivial
  | handshake cookie now => exact .inr (.inr (.inl ⟨cookie, now, rfl⟩))
  | done i => exact .inl trivial

theorem sessions_next_of_quiet {e : Happening} (h : Quiet e) (p : Process L) :
    ((machine L).next p e).state.sessions = p.state.sessions := by
  cases e with
  | main e =>
    cases e with
    | request c | restart tls nowMs => exact h.elim
    | tick nowMs => exact DiskMain.sessions_onTaskCheck nowMs p.main
    | diskAdded disk => exact DiskMain.sessions_onDiskAdded disk p.state
    | backupEnded name status => rfl
  | handshake cookie now => exact h.elim
  | done i =>
    cases htask : p.pool[i]? with
    | none => rw [next_done_of_none p htask]
    | some t =>
      rw [next_done p htask]
      exact Api.sessions_runWork t.work p.state

theorem sessions_next_restart (tls : Bool) (nowMs : Int) (p : Process L) :
    ((machine L).next p (.main (.restart tls nowMs))).state.sessions =
      { ttl := DiskMain.sessionTtl p.state } :=
  DiskMain.sessions_restart tls nowMs p.main

end Process

end TiBackup
