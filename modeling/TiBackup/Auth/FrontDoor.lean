import TiBackup.Session.Cookie
import TiBackup.Stores.Protected

/-!
# TiBackup.Auth.FrontDoor

**The front door of the daemon.** Who is let in is decided by very little: the session
table with the login gates, the record of the password, the lifetime of a session and
whether cookies are secure. `Door` is a machine with these, and it knows nothing of jobs,
servers, preferences, logs or files. It answers the requests that ask for no more, and
turns away those that have no session or the wrong CSRF token.

The daemon is such a door with something behind it (`front_door`): whatever happens, it
stands where the door stands after the same knocks, and gives the door's answers. So
somebody without a session learns nothing of what is behind it (`outsiders_learn_nothing`),
but for what `/api/health` tells everybody.
-/

namespace TiBackup

open Lib Lib.Machine

variable {L : Library}

/-! ### The door -/

/-- What the door looks at. -/
@[ext]
structure Door where
  sessions : SessionStore
  salt : Bytes
  passhash : String
  ttl : Int
  secure : Bool

/-- What is shown at the door. -/
inductive Knock
  /-- Ask what the status is. -/
  | status (token : String) (now : Int)
  | setup (password : String) (m : Moment)
  | login (password client : String) (m : Moment)
  | logout (token csrf : String) (now : Int)
  /-- Ask for what is behind the door; `csrf` if that may change something. -/
  | enter (token : String) (csrf : Option String) (now : Int)
  /-- A web socket. -/
  | connect (token : String) (now : Int)
  | restart (tls : Bool)

/-- The door has an answer to it. -/
def Knock.settled : Knock → Bool
  | .status _ _ | .setup _ _ | .login _ _ _ | .logout _ _ _ => true
  | _ => false

namespace Door

/-- A cookie with a token and a lifetime. -/
def cookie (d : Door) (token : String) (life : Int) : String :=
  "tibackup_sid=" ++ token ++ "; HttpOnly; SameSite=Strict; Path=/" ++
    (if d.secure then "; Secure" else "") ++ "; Max-Age=" ++ life.repr

/-- A session is validated, and then the CSRF token if one is asked for. The answer if the
door stays closed. -/
def check (d : Door) (token : String) (csrf : Option String) (now : Int) : Door × Option Response :=
  let v := d.sessions.validate now token
  ({ d with sessions := v.1 },
    if v.2 then
      match csrf with
      | some x => if v.1.csrfFor token ≠ "" ∧ x = v.1.csrfFor token then none else some forbidden
      | none => none
    else some unauthorized)

/-- A new session. -/
def signIn (d : Door) (m : Moment) : Door × Option Response :=
  let r := d.sessions.createSession m.rawToken m.rawCsrf m.later m.created
  ({ d with sessions := r.1 },
    some { status := .ok
           body := .obj [("ok", .bool true), ("csrf", .str r.2.2)]
           setCookie := some (d.cookie r.2.1 d.ttl) })

/-- A new record of a password. -/
def setPassword (D : Digests) (d : Door) (pw : String) (m : Moment) : Door :=
  let salt := PasswordHash.generateSalt m.rawSalt
  { d with salt, passhash := PasswordHash.hash D pw salt PasswordHash.kDefaultIterations }

/-- One knock: the answer, if the door gives it itself. -/
def step (D : Digests) (d : Door) : Knock → Door × Option Response
  | .status token now =>
    let v := d.sessions.validate now token
    ({ d with sessions := v.1 },
      some (jsonResp (.obj ([("setupRequired", .bool d.passhash.isEmpty), ("authenticated", .bool v.2)] ++
        if v.2 then [("csrf", .str (v.1.csrfFor token))] else []))))
  | .setup pw m =>
    if d.passhash ≠ "" then (d, some (errResp "setup already completed" .forbidden))
    else if utf16Length pw < 8 then
      (d, some (errResp "password must be at least 8 characters" .badRequest))
    else (d.setPassword D pw m).signIn m
  | .login pw client m =>
    let a := d.sessions.loginAllowed m.now client
    if a.2 = false then
      ({ d with sessions := a.1 },
        some (errResp "too many failed attempts, try again later" .tooManyRequests))
    else if d.passhash = "" then
      ({ d with sessions := a.1 }, some (errResp "setup required" .conflict))
    else if PasswordHash.verify D pw d.salt d.passhash = false then
      ({ d with sessions := a.1.loginFailed m.later client },
        some (errResp "invalid credentials" .unauthorized))
    else
      let d' := { d with sessions := a.1.loginSucceeded client }
      (if PasswordHash.needsUpgrade d.passhash then d'.setPassword D pw m else d').signIn m
  | .logout token csrf now =>
    let r := d.check token (some csrf) now
    match r.2 with
    | some e => (r.1, some e)
    | none =>
      ({ r.1 with sessions := r.1.sessions.drop token },
        some { status := .ok, body := .obj [("ok", .bool true)], setCookie := some (d.cookie "" 0) })
  | .enter token csrf now => d.check token csrf now
  | .connect token now => ((d.check token none now).1, none)
  | .restart tls => ({ d with sessions := { ttl := d.ttl }, secure := tls }, none)

theorem answers {k : Knock} (h : k.settled = true) (D : Digests) (d : Door) :
    (step D d k).2 ≠ none := by
  cases k with
  | status token now => simp [step]
  | setup pw m =>
    simp only [step]
    split
    · simp
    · split <;> simp [signIn]
  | login pw client m =>
    simp only [step]
    repeat' split
    all_goals simp [signIn]
  | logout token csrf now =>
    simp only [step]
    split <;> simp
  | _ => cases h

/-- The door as a machine. -/
def machine (D : Digests) : Machine Door Knock (Option Response) where
  step := step D

end Door

/-! ### The daemon seen from outside -/

/-- The door of a state. -/
abbrev State.door (st : State L) : Door where
  sessions := st.sessions
  salt := Api.webSalt st
  passhash := Api.webPasshash st
  ttl := DiskMain.sessionTtl st
  secure := st.secureCookies

/-- What a request shows at the door. Only `/api/health` passes by. -/
def Call.knock (c : Call) : Option Knock :=
  match c.route with
  | .health => none
  | .authStatus => some (.status (sessionToken c.req) c.moment.now)
  | .setup => some (.setup (Api.bodyPassword c.req) c.moment)
  | .login => some (.login (Api.bodyPassword c.req) c.req.remoteAddress c.moment)
  | .logout => some (.logout (sessionToken c.req) c.req.csrfToken c.moment.now)
  | r => some (.enter (sessionToken c.req) (if r.changes then some c.req.csrfToken else none)
      c.moment.now)

/-- What an event shows at the door. -/
def Process.knock : Process.Happening → Option Knock
  | .main (.request c) => c.knock
  | .main (.restart tls _) => some (.restart tls)
  | .handshake cookie now => some (.connect (wsCookieTokenFromHeader cookie) now)
  | _ => none

namespace Api

/-- The response a reply is already. -/
def known : Reply → Option Response
  | .now r | .later (.respond r) => some r
  | .later _ => none

theorem Delivers.known {d : Response → Reply} (h : Delivers d) (r : Response) :
    known (d r) = some r := by
  rcases h with rfl | rfl <;> rfl

/-! ### The door of each handler -/

theorem clearCookie_door (st : State L) :
    buildSessionCookie st "" st.secureCookies true = st.door.cookie "" 0 := by
  have hlife : "; Max-Age=0" = "; Max-Age=" ++ (0 : Int).repr := by decide
  unfold buildSessionCookie Door.cookie
  simp only [if_true]
  rw [hlife, ← String.append_assoc]

theorem door_setPassword (pw : String) (m : Moment) (st : State L) :
    (setPassword pw m.rawSalt st).door = st.door.setPassword L.digests pw m := by
  have httl := Process.sessionTtl_congr
    (getValue_setPassword (k := "web/session_ttl") (by decide) pw m.rawSalt st)
  refine Door.ext ?_ ?_ ?_ httl ?_
  · rfl
  · exact webSalt_setPassword pw m.rawSalt st
  · exact webPasshash_setPassword pw m.rawSalt st
  · rfl

theorem door_signIn (m : Moment) (st : State L) :
    ((signIn m st).1.door, known (signIn m st).2) = st.door.signIn m := by
  simp only [signIn, known, Door.signIn, buildSessionCookie_eq]
  rfl

theorem door_setup (req : Request) (m : Moment) (st : State L) :
    ((setup req m st).1.door, known (setup req m st).2) =
      Door.step L.digests st.door (.setup (bodyPassword req) m) := by
  have hset : (!(st.getValue "web/passhash").toString.isEmpty) = true ↔ st.door.passhash ≠ "" := by
    simp [webPasshash]
  unfold setup Door.step
  dsimp only
  by_cases hdone : st.door.passhash ≠ ""
  · rw [if_pos (hset.mpr hdone), if_pos hdone]
    rfl
  · rw [if_neg (fun h => hdone (hset.mp h)), if_neg hdone]
    by_cases hshort : utf16Length (bodyPassword req) < 8
    · rw [if_pos hshort, if_pos (show utf16Length ((parseBody req).get "password").toString < 8
        from hshort)]
      rfl
    · rw [if_neg hshort, if_neg (show ¬utf16Length ((parseBody req).get "password").toString < 8
        from hshort), ← door_setPassword, ← door_signIn]
      rfl

theorem door_login (req : Request) (m : Moment) (st : State L) :
    ((login req m st).1.door, known (login req m st).2) =
      Door.step L.digests st.door (.login (bodyPassword req) req.remoteAddress m) := by
  unfold Door.step
  dsimp only
  by_cases hallowed : (st.sessions.loginAllowed m.now req.remoteAddress).2 = true
  · have hgate : ¬(st.sessions.loginAllowed m.now req.remoteAddress).2 = false := by
      rw [hallowed]
      nofun
    rw [login_of_allowed hallowed, if_neg hgate]
    by_cases hempty : webPasshash st = ""
    · rw [if_pos (String.isEmpty_iff.mpr hempty), if_pos hempty]
      rfl
    · rw [if_neg (fun h => hempty (String.isEmpty_iff.mp h)), if_neg hempty]
      by_cases hwrong : PasswordHash.verify L.digests (bodyPassword req) (webSalt st)
          (webPasshash st) = false
      · rw [if_pos hwrong, if_pos hwrong]
        rfl
      · rw [if_neg hwrong, if_neg hwrong, door_signIn]
        refine congrArg (Door.signIn · m) ?_
        by_cases hupgrade : PasswordHash.needsUpgrade (webPasshash st) = true
        · rw [if_pos hupgrade, if_pos hupgrade, door_setPassword]
          rfl
        · rw [if_neg hupgrade, if_neg hupgrade]
          rfl
  · rw [Bool.not_eq_true] at hallowed
    rw [login_of_refused hallowed, if_pos hallowed]
    rfl

/-- A request gets past the checks of its route. -/
def Passes (st : State L) (c : Call) : Prop :=
  if c.route.changes then CsrfVerified st c.moment.now c.req
  else ∃ s, LiveSession st c.moment.now c.req s

theorem csrfOk_iff (st : State L) (req : Request) : csrfOk st req = true ↔
    st.sessions.csrfFor (sessionToken req) ≠ "" ∧
      req.csrfToken = st.sessions.csrfFor (sessionToken req) := by
  unfold csrfOk
  by_cases hempty : st.sessions.csrfFor (sessionToken req) = ""
  · simp [hempty]
  · simp [hempty]

/-- The door checks what the handlers check. -/
theorem check_door (st : State L) (req : Request) (now : Int) (changes : Bool) :
    st.door.check (sessionToken req) (if changes then some req.csrfToken else none) now =
      ((st.validated now req).door,
        if (st.sessions.validate now (sessionToken req)).2 then
          if changes = true ∧ csrfOk (st.validated now req) req = false then some forbidden else none
        else some unauthorized) := by
  unfold Door.check
  refine Prod.ext rfl ?_
  dsimp only
  cases changes with
  | false => simp
  | true =>
    have hok := csrfOk_iff (st.validated now req) req
    simp only [if_true]
    split
    · split
      · next hpass => rw [if_neg (by simp [hok.mpr hpass])]
      · next hpass =>
        rw [if_pos ⟨trivial, Bool.eq_false_iff.mpr fun h => hpass (hok.mp h)⟩]
    · rfl

theorem guarded_eq (d : Response → Reply) (k : Handler L) (req : Request) (m : Moment)
    (st : State L) : withAuth d (withCsrf d k) req m st =
      if (st.sessions.validate m.now (sessionToken req)).2 then
        if csrfOk (st.validated m.now req) req then k req m (st.validated m.now req)
        else (st.validated m.now req, d forbidden)
      else (st.validated m.now req, d unauthorized) := rfl

theorem door_logout (req : Request) (m : Moment) (st : State L) :
    ((logout req m st).1.door, known (logout req m st).2) =
      Door.step L.digests st.door (.logout (sessionToken req) req.csrfToken m.now) := by
  have hcheck := check_door st req m.now true
  rw [if_pos rfl] at hcheck
  unfold Door.step
  dsimp only
  rw [hcheck, logout, guarded_eq]
  by_cases hvalid : (st.sessions.validate m.now (sessionToken req)).2 = true
  · rw [if_pos hvalid, if_pos hvalid]
    by_cases hok : csrfOk (st.validated m.now req) req = true
    · have hpass : ¬(true = true ∧ csrfOk (st.validated m.now req) req = false) := by simp [hok]
      rw [if_neg hpass, if_pos hok, ← clearCookie_door]
      rfl
    · have hno : true = true ∧ csrfOk (st.validated m.now req) req = false := by simpa using hok
      rw [if_pos hno, if_neg hok]
      rfl
  · rw [if_neg hvalid, if_neg hvalid]
    rfl

/-! ### What is behind the door -/

theorem secureCookies_putPrefs (req : Request) (m : Moment) (st : State L) :
    (putPrefs req m st).1.secureCookies = st.secureCookies := by
  rw [putPrefs, guarded_eq]
  split
  · split
    · dsimp only
      generalize hchanged : (if (parseBody req).contains "debug" = true then _ else _) = changed
      have hdebug : changed.secureCookies = st.secureCookies := by
        rw [← hchanged]
        split <;> rfl
      have hpaths : Part.Same .flags changed (if (parseBody req).contains "paths" = true then
          setPaths ((parseBody req).get "paths").toObject changed else changed) :=
        .ite (setPaths_keeps (by decide) _ _)
      exact (hpaths.trans (.ite (setSmtp_keeps (by decide) _ _))).2.trans hdebug
    · rfl
  · rfl

/-- Whether cookies are secure is settled when a process begins. -/
theorem secureCookies_serve (c : Call) (st : State L) :
    (serve c st).1.secureCookies = st.secureCookies := by
  cases hwrites : c.route.writes .flags with
  | false => exact (handle_frame hwrites c.req c.moment st).2
  | true =>
    obtain ⟨r, req, m⟩ := c
    cases r with
    | putPrefs => exact secureCookies_putPrefs req m st
    | _ => cases hwrites

theorem sessions_guarded_serve {c : Call} (hpublic : c.route.isPublic = false)
    (hlogout : c.route ≠ .logout) (st : State L) :
    (serve c st).1.sessions = (st.validated c.moment.now c.req).sessions := by
  cases hchanges : c.route.changes with
  | true => exact sessions_changes hpublic hchanges hlogout c.req c.moment st
  | false =>
    refine sessions_reads (fun hhealth => ?_) hchanges c.req c.moment st
    rw [hhealth] at hpublic
    cases hpublic

/-- A guarded route moves nothing at the door but the session that was shown. -/
theorem door_guarded {c : Call} (hpublic : c.route.isPublic = false) (hlogout : c.route ≠ .logout)
    (st : State L) : (serve c st).1.door = (st.validated c.moment.now c.req).door := by
  have hkey : ∀ k, k ∈ ["web/salt", "web/passhash", "web/session_ttl"] →
      (serve c st).1.getValue k = st.getValue k := by
    intro k hk
    rcases getValue_serve c st k with hsame | ⟨hin, -⟩ | ⟨-, hpref⟩
    · exact hsame
    · rcases hin.1 with hroute | hroute <;> rw [hroute] at hpublic <;> cases hpublic
    · exfalso
      revert k
      decide
  have hsalt := hkey "web/salt" (by decide)
  have hhash := hkey "web/passhash" (by decide)
  refine Door.ext (sessions_guarded_serve hpublic hlogout st) ?_ ?_ ?_ (secureCookies_serve c st)
  · exact congrArg (fun v : QVariant => toLatin1 v.toString) hsalt
  · exact congrArg QVariant.toString hhash
  · exact Process.sessionTtl_congr (hkey "web/session_ttl" (by decide))

theorem knock_guarded {c : Call} (hpublic : c.route.isPublic = false) (hlogout : c.route ≠ .logout) :
    c.knock = some (.enter (sessionToken c.req)
      (if c.route.changes then some c.req.csrfToken else none) c.moment.now) := by
  obtain ⟨r, req, m⟩ := c
  cases r with
  | health | authStatus | setup | login => cases hpublic
  | logout => exact absurd rfl hlogout
  | _ => rfl

theorem csrfVerified_iff (st : State L) (now : Int) (req : Request) : CsrfVerified st now req ↔
    (st.sessions.validate now (sessionToken req)).2 = true ∧
      csrfOk (st.validated now req) req = true := by
  rw [validate_iff_liveSession]
  constructor
  · rintro ⟨s, hs, hcsrf⟩
    exact ⟨⟨s, hs⟩, (csrfOk_validated hs).mpr hcsrf⟩
  · rintro ⟨⟨s, hs⟩, hok⟩
    exact ⟨s, hs, (csrfOk_validated hs).mp hok⟩

/-- A guarded route answers what the door answers, and goes on when the door is open. -/
theorem answer_guarded {c : Call} (hpublic : c.route.isPublic = false) (st : State L) :
    (∀ e, (st.door.check (sessionToken c.req)
        (if c.route.changes then some c.req.csrfToken else none) c.moment.now).2 = some e →
      known (serve c st).2 = some e ∧ ¬Passes st c) ∧
    ((st.door.check (sessionToken c.req)
        (if c.route.changes then some c.req.csrfToken else none) c.moment.now).2 = none →
      Passes st c) := by
  rw [check_door]
  dsimp only
  unfold Passes
  by_cases hvalid : (st.sessions.validate c.moment.now (sessionToken c.req)).2 = true
  · rw [if_pos hvalid]
    cases hchanges : c.route.changes with
    | false =>
      refine ⟨fun e he => ?_, fun _ => (validate_iff_liveSession st c.moment.now c.req).mp hvalid⟩
      cases he
    | true =>
      simp only [if_true, csrfVerified_iff]
      cases hok : csrfOk (st.validated c.moment.now c.req) c.req with
      | true =>
        refine ⟨fun e he => ?_, fun _ => ⟨hvalid, rfl⟩⟩
        cases he
      | false =>
        refine ⟨fun e he => ⟨?_, fun h => ?_⟩, fun hnone => ?_⟩
        · obtain rfl := Option.some.inj he
          obtain ⟨d, k, hd, hhandle⟩ := handle_csrf (L := L) hpublic hchanges
          rw [serve, hhandle, guarded_eq, if_pos hvalid, if_neg (by simp [hok])]
          exact hd.known forbidden
        · cases h.2
        · cases hnone
  · rw [if_neg hvalid]
    refine ⟨fun e he => ⟨?_, ?_⟩, fun hnone => ?_⟩
    · obtain rfl := Option.some.inj he
      obtain ⟨d, k, hd, hhandle⟩ := handle_guarded (L := L) hpublic
      rw [serve, hhandle, withAuth, if_neg hvalid]
      exact hd.known unauthorized
    · split
      · rw [csrfVerified_iff]
        exact fun h => hvalid h.1
      · rw [← validate_iff_liveSession]
        exact hvalid
    · cases hnone

theorem door_authStatus (req : Request) (m : Moment) (st : State L) :
    ((authStatus req m st).1.door, known (authStatus req m st).2) =
      Door.step L.digests st.door (.status (sessionToken req) m.now) := by
  unfold authStatus Door.step
  refine Prod.ext rfl ?_
  simp only [known]
  split <;> rfl

/-! ### One request -/

/-- **A request and its knock.** The door moves as the state does; its answer is the
daemon's, and if it has none, the request gets past the checks. -/
theorem door_serve {c : Call} {k : Knock} (h : c.knock = some k) (st : State L) :
    (serve c st).1.door = (Door.step L.digests st.door k).1 ∧
    (∀ a, (Door.step L.digests st.door k).2 = some a → known (serve c st).2 = some a) ∧
    ((Door.step L.digests st.door k).2 = none → c.route.isPublic = false ∧ Passes st c) := by
  have hwhole : ∀ k, ((serve c st).1.door, known (serve c st).2) = Door.step L.digests st.door k →
      k.settled = true →
      (serve c st).1.door = (Door.step L.digests st.door k).1 ∧
      (∀ a, (Door.step L.digests st.door k).2 = some a → known (serve c st).2 = some a) ∧
      ((Door.step L.digests st.door k).2 = none → c.route.isPublic = false ∧ Passes st c) := by
    intro k hrun hsettled
    refine ⟨by rw [← hrun], fun a ha => ?_, fun hnone => ?_⟩
    · rwa [← hrun] at ha
    · exact absurd hnone (Door.answers hsettled _ _)
  by_cases hlogout : c.route = .logout
  · obtain ⟨r, req, m⟩ := c
    obtain rfl : r = .logout := hlogout
    obtain rfl := Option.some.inj h
    exact hwhole _ (door_logout req m st) rfl
  cases hpublic : c.route.isPublic with
  | false =>
    rw [knock_guarded hpublic hlogout] at h
    obtain rfl := Option.some.inj h
    refine ⟨?_, fun a ha => ((answer_guarded hpublic st).1 a ha).1,
      fun hnone => ⟨rfl, (answer_guarded hpublic st).2 hnone⟩⟩
    rw [door_guarded hpublic hlogout, Door.step, check_door]
  | true =>
    obtain ⟨r, req, m⟩ := c
    cases r with
    | health => cases h
    | authStatus =>
      obtain rfl := Option.some.inj h
      exact hwhole _ (door_authStatus req m st) rfl
    | setup =>
      obtain rfl := Option.some.inj h
      exact hwhole _ (door_setup req m st) rfl
    | login =>
      obtain rfl := Option.some.inj h
      exact hwhole _ (door_login req m st) rfl
    | _ => cases hpublic

end Api

namespace Process

/-! ### Runs -/

theorem door_congr {st st' : State L} (hsessions : st'.sessions = st.sessions)
    (hconf : st'.conf = st.conf) (hsecure : st'.secureCookies = st.secureCookies) :
    st'.door = st.door :=
  Door.ext hsessions (Api.webSalt_congr hconf) (Api.webPasshash_congr hconf)
    (sessionTtl_congr (Api.getValue_of_conf_eq hconf _)) hsecure

/-- Most events have nothing to do with the door. -/
theorem door_next_of_quiet {e : Happening} (h : Quiet e) (p : Process L) :
    ((machine L).next p e).state.door = p.state.door := by
  have hframe : writes e .conf = false ∧ writes e .flags = false := by
    cases e with
    | main e =>
      cases e with
      | request c | restart tls nowMs => exact h.elim
      | _ => exact ⟨rfl, rfl⟩
    | _ => exact ⟨rfl, rfl⟩
  exact door_congr (sessions_next_of_quiet h p) (same_next hframe.1 p) (same_next hframe.2 p).2

theorem knock_of_quiet {e : Happening} (h : Quiet e) : knock e = none := by
  cases e with
  | main e =>
    cases e with
    | request c | restart tls nowMs => exact h.elim
    | _ => rfl
  | handshake cookie now => exact h.elim
  | done i => rfl

theorem door_restart (tls : Bool) (nowMs : Int) (p : Process L) :
    ((machine L).next p (.main (.restart tls nowMs))).state.door =
      { p.state.door with sessions := { ttl := p.state.door.ttl }, secure := tls } := by
  have hstarts := DiskMain.onTaskCheck_starts nowMs
    { p.main with state := DiskMain.restarted tls p.state }
  have hconf := hstarts.part (q := .conf) (by decide)
  have hflags := hstarts.part (q := .flags) (by decide)
  exact (door_congr (DiskMain.sessions_onTaskCheck nowMs _) hconf hflags.2).trans rfl

/-- **One event.** -/
theorem door_next (p : Process L) (e : Happening) :
    ((machine L).next p e).state.door =
      (knock e).elim p.state.door ((Door.machine L.digests).next p.state.door) := by
  rcases e.cases with hquiet | ⟨c, rfl⟩ | ⟨cookie, now, rfl⟩ | ⟨tls, nowMs, rfl⟩
  · rw [door_next_of_quiet hquiet, knock_of_quiet hquiet, Option.elim_none]
  · cases hknock : c.knock with
    | none =>
      obtain ⟨r, req, m⟩ := c
      cases r with
      | health =>
        rw [knock, hknock]
        rfl
      | _ => cases hknock
    | some k =>
      rw [knock, hknock, Option.elim_some, state_request]
      exact (Api.door_serve hknock p.state).1
  · rfl
  · exact door_restart tls nowMs p

theorem door_run (p : Process L) (es : List Happening) :
    ((machine L).run p es).state.door =
      (Door.machine L.digests).run p.state.door (es.filterMap knock) :=
  view_run (v := fun p : Process L => p.state.door) door_next p es

/-- **The daemon is its front door with something behind it.** After any events the door
of the daemon is where the machine `Door` is after the knocks among them. Whatever the door
answers is what the daemon answers, and if the door leaves a request to the daemon, it gets
past the checks. -/
theorem front_door (p : Process L) (es : List Happening) :
    ((machine L).run p es).state.door =
        (Door.machine L.digests).run p.state.door (es.filterMap knock) ∧
      ∀ (c : Call) (k : Knock), c.knock = some k →
        let answer := (Door.machine L.digests).out
          ((Door.machine L.digests).run p.state.door (es.filterMap knock)) k
        (∀ a, answer = some a →
          Api.known (Api.serve c ((machine L).run p es).state).2 = some a) ∧
        (answer = none →
          c.route.isPublic = false ∧ Api.Passes ((machine L).run p es).state c) := by
  refine ⟨door_run p es, ?_⟩
  intro c k hknock
  rw [← door_run p es]
  exact (Api.door_serve hknock ((machine L).run p es).state).2

/-! ### Two runs -/

/-- **Whoever has no session learns nothing.** Two daemons whose doors look alike may differ
in everything else: their jobs, servers, preferences and files, and the hosts they run on.
If they hear the same knocks, whatever else happens to them, then their doors stay alike,
and two requests with the same knock get the same answer, unless they get past the
checks in both. -/
theorem outsiders_learn_nothing {L L' : Library} (hdigests : L'.digests = L.digests)
    {p : Process L} {p' : Process L'} (hdoor : p'.state.door = p.state.door)
    {es es' : List Happening} (hknocks : es'.filterMap knock = es.filterMap knock) :
    ((machine L').run p' es').state.door = ((machine L).run p es).state.door ∧
      ∀ c c' : Call, c.knock ≠ none → c'.knock = c.knock →
        (∃ a, Api.known (Api.serve c ((machine L).run p es).state).2 = some a ∧
          Api.known (Api.serve c' ((machine L').run p' es').state).2 = some a) ∨
        (c.route.isPublic = false ∧ Api.Passes ((machine L).run p es).state c ∧
          c'.route.isPublic = false ∧ Api.Passes ((machine L').run p' es').state c') := by
  have halike : ((machine L').run p' es').state.door = ((machine L).run p es).state.door := by
    rw [door_run, door_run, hdigests, hdoor, hknocks]
  refine ⟨halike, ?_⟩
  intro c c' hsome hsame
  obtain ⟨k, hknock⟩ := Option.ne_none_iff_exists'.mp hsome
  obtain ⟨-, hanswer, hpass⟩ := Api.door_serve hknock ((machine L).run p es).state
  obtain ⟨-, hanswer', hpass'⟩ :=
    Api.door_serve (hsame.trans hknock) ((machine L').run p' es').state
  rw [halike, hdigests] at hanswer' hpass'
  cases hout : (Door.step L.digests ((machine L).run p es).state.door k).2 with
  | some a => exact .inl ⟨a, hanswer a hout, hanswer' a hout⟩
  | none =>
    obtain ⟨hguarded, hpasses⟩ := hpass hout
    exact .inr ⟨hguarded, hpasses, hpass' hout⟩

/-- A new process that has an SSH server. -/
def withServer : Process Reference.library :=
  let srv : SSHServer := ⟨"uuid", "backup", "host", 22, "root", "", "secret", "SHA256:key"⟩
  { reference with
    main := { reference.main with
      state := { reference.main.state with
        ssh := Reference.library.ssh.save reference.main.state.ssh srv } } }

/-- The password is set and a job is saved; -/
def savingRun : List Happening := [.main (.request setupCall), .main (.request photosCall)]

/-- on the other machine the tasks are checked, the password is set and the server is
deleted. -/
def deletingRun : List Happening :=
  [.main (.tick 0), .main (.request setupCall),
    .main (.request { photosCall with route := .deleteSsh "uuid" })]

/-- A request without a cookie. -/
def listCall : Call where
  route := .getSshList
  req := {}
  moment := { Reference.moment "" with now := 3 }

/-- Without a session, nobody sees which of the two it is. -/
theorem outsiders_withServer :
    (Api.allJobs ((machine _).run withServer deletingRun).state).length ≠
        (Api.allJobs ((machine _).run reference savingRun).state).length ∧
      ((∃ a, Api.known (Api.serve listCall ((machine _).run reference savingRun).state).2 = some a ∧
          Api.known (Api.serve listCall ((machine _).run withServer deletingRun).state).2 = some a) ∨
        (listCall.route.isPublic = false ∧
          Api.Passes ((machine _).run reference savingRun).state listCall ∧
          listCall.route.isPublic = false ∧
          Api.Passes ((machine _).run withServer deletingRun).state listCall)) := by
  have hsome : listCall.knock ≠ none := nofun
  have halike : withServer.state.door = reference.state.door := rfl
  have hknocks : deletingRun.filterMap knock = savingRun.filterMap knock := rfl
  exact ⟨by decide +kernel,
    (outsiders_learn_nothing rfl halike hknocks).2 listCall listCall hsome rfl⟩

end Process

end TiBackup
