import TiBackup.Model.Shell
import TiBackup.Session.CookieHeader
import TiBackup.Session.Csrf
import TiBackup.Session.SetCookie

/-!
# TiBackup.Session.PageTokens

**The two secrets of a page belong together.** The CSRF token in the page and the session
cookie in the browser come from one answer, but they are taken over one after the other,
and other answers may come in between. `Sound` says what holds all the same: while the page
shows the application it has a CSRF token, and it is that of the session the cookie names,
if the daemon still has it. Every event of the page, the browser and the daemon keeps it
(`Sound.step`), as long as no token is drawn twice and nobody signs in or out on this page
while it is not known yet how another sign-in or a status request of `init` has ended. The
page does not see to that itself: `busy` is taken away again by whatever saves something, and
a page that loads asks for its status twice, so the second answer may come when it has been
signed in, and out, and in again, and put the CSRF token of the first session back.

So a page that is signed in is never told `forbidden`: an unsafe request it sends passes
the CSRF check whenever it passes the session check (`page_never_forbidden`).
-/

namespace TiBackup

open Lib Lib.Machine

variable {L : Library}

/-- The token the daemon reads from the header the cookie is sent in. -/
def SessionCookie.sent (c : SessionCookie) : String :=
  sessionToken { cookie := "tibackup_sid=" ++ c.token }

theorem sessionToken_congr {req req' : Request} (h : req.cookie = req'.cookie) :
    sessionToken req = sessionToken req' := by
  rw [sessionToken, sessionToken, cookieValue, cookieValue, h]

theorem SessionCookie.sent_of_item {c : SessionCookie}
    (hnone : ';' ∉ "tibackup_sid=".toList ++ c.token.toList)
    (hitem : cookieItem ("tibackup_sid=".toList ++ c.token.toList) =
      some ("tibackup_sid", c.token)) (hmark : dropMark c.token.toList = c.token.toList) :
    c.sent = c.token := by
  rw [sent, sessionToken, cookieValue, String.toList_append, List.splitOn_eq_singleton hnone,
    List.findSome?_cons, hitem, Option.bind_some, if_pos rfl]
  dsimp only
  rw [hmark, String.ofList_toList]

/-- The daemon reads the very token it gave out. -/
theorem SessionCookie.sent_randomToken (raw : RandomBytes) (expires : Int) :
    SessionCookie.sent ⟨SessionStore.randomToken raw, expires⟩ = SessionStore.randomToken raw :=
  sent_of_item (cookieItem_token raw).1 (cookieItem_token raw).2
    (dropMark_eq_self_iff.mpr (fromUtf8_toUtf8_iff.mp (CookieHeader.fromUtf8_token raw)))

namespace Process

/-! ### What the daemon keeps -/

/-- If the daemon has the session, this is its CSRF token. -/
def Names (q : Process L) (t x : String) : Prop := t ≠ "" → ∀ s, entry q t = some s → s.csrf = x

/-- The later daemon has the session only with the CSRF token it had. -/
def Keeps (q q' : Process L) (t : String) : Prop :=
  ∀ s, entry q' t = some s → ∃ s', entry q t = some s' ∧ s'.csrf = s.csrf

theorem Names.keeps {q q' : Process L} {t x : String} (h : Names q t x) (hk : Keeps q q' t) :
    Names q' t x := by
  intro ht s hs
  obtain ⟨s', hs', hcsrf⟩ := hk s hs
  rw [← hcsrf]
  exact h ht s' hs'

end Process

namespace Api

/-- No request changes the CSRF token of a session; a sign-in makes one. -/
theorem csrf_serve {c : Call} {st : State L} {t : String} {s : Session}
    (h : (serve c st).1.sessions.sessions[t]? = some s) :
    (SignsIn st c ∧ t = SessionStore.randomToken c.moment.rawToken ∧
        s.csrf = SessionStore.randomToken c.moment.rawCsrf) ∨
      ∃ s', st.sessions.sessions[t]? = some s' ∧ s'.csrf = s.csrf := by
  cases (tableStep_serve c st).1 with
  | signedIn hin hentry =>
    rw [hentry] at h
    split at h
    · next ht =>
      obtain rfl := Option.some.inj h
      exact .inl ⟨hin, ht, rfl⟩
    · exact .inr ⟨s, (Process.alive_eq_some.mp h).1, rfl⟩
  | signedOut _ hentry =>
    rw [hentry] at h
    split at h
    · cases h
    · exact .inr ⟨s, h, rfl⟩
  | validated _ _ hentry =>
    rw [hentry] at h
    split at h
    · obtain ⟨s', hs', rfl⟩ := Option.map_eq_some_iff.mp h
      exact .inr ⟨s', (Process.alive_eq_some.mp hs').1, rfl⟩
    · exact .inr ⟨s, h, rfl⟩
  | left _ _ hentry =>
    rw [hentry] at h
    exact .inr ⟨s, h, rfl⟩

end Api

namespace Process

theorem csrf_next {p : Process L} {e : Happening} {t : String} {s : Session}
    (h : entry ((machine L).next p e) t = some s) :
    (∃ c, e = .main (.request c) ∧ Api.SignsIn p.state c ∧
        t = SessionStore.randomToken c.moment.rawToken ∧
        s.csrf = SessionStore.randomToken c.moment.rawCsrf) ∨
      ∃ s', entry p t = some s' ∧ s'.csrf = s.csrf := by
  rcases e.cases with hquiet | ⟨c, rfl⟩ | ⟨cookie, now, rfl⟩ | ⟨tls, nowMs, rfl⟩
  · exact .inr ⟨s, (entry_of_quiet hquiet p t).symm.trans h, rfl⟩
  · exact (Api.csrf_serve h).imp_left fun h => ⟨c, rfl, h⟩
  · rw [entry_handshake] at h
    split at h
    · obtain ⟨s', hs', rfl⟩ := Option.map_eq_some_iff.mp h
      exact .inr ⟨s', (alive_eq_some.mp hs').1, rfl⟩
    · exact .inr ⟨s, h, rfl⟩
  · rw [entry, sessions_next_restart] at h
    simp at h

/-- Whoever signs in is given a token; every other one keeps its session. -/
theorem keeps_serve {q q' : Process L} {c : Call} (hq : q'.state = (Api.serve c q.state).1)
    {t : String} (h : Api.SignsIn q.state c → SessionStore.randomToken c.moment.rawToken ≠ t) :
    Keeps q q' t := by
  intro s hs
  rw [entry, hq] at hs
  exact (Api.csrf_serve hs).resolve_left fun hin => h hin.1 hin.2.1.symm

theorem csrf_ne_empty_serve {q q' : Process L} {c : Call} (hq : q'.state = (Api.serve c q.state).1)
    (h : ∀ t s, entry q t = some s → s.csrf ≠ "") {t : String} {s : Session}
    (hs : entry q' t = some s) : s.csrf ≠ "" := by
  rw [entry, hq] at hs
  rcases Api.csrf_serve hs with ⟨-, -, hcsrf⟩ | ⟨s', hs', hcsrf⟩
  · rw [hcsrf]
    exact SessionStore.randomToken_ne_empty _
  · rw [← hcsrf]
    exact h t s' hs'

/-- Of the other events only a handshake looks at a session, and a restart ends them all. -/
theorem keeps_next {q : Process L} {e : Happening} {t : String}
    (h : ∀ c, e = .main (.request c) → Api.SignsIn q.state c →
      SessionStore.randomToken c.moment.rawToken ≠ t) : Keeps q ((machine L).next q e) t := by
  intro s hs
  rcases csrf_next hs with ⟨c, he, hin, ht, -⟩ | hold
  · exact absurd ht.symm (h c he hin)
  · exact hold

theorem csrf_ne_empty_next {q : Process L} {e : Happening}
    (h : ∀ t s, entry q t = some s → s.csrf ≠ "") {t : String} {s : Session}
    (hs : entry ((machine L).next q e) t = some s) : s.csrf ≠ "" := by
  rcases csrf_next hs with ⟨c, -, -, -, hcsrf⟩ | ⟨s', hs', hcsrf⟩
  · rw [hcsrf]
    exact SessionStore.randomToken_ne_empty _
  · rw [← hcsrf]
    exact h t s' hs'

end Process

namespace Shell

/-! ### Answers -/

/-- The CSRF token in an answer. -/
def csrfOf (a : Response) : String := (a.body.toObject.get "csrf").toString

/-- What the replies to a page are like: a new session with its cookie and its CSRF token,
the cookie that takes the session away, or no cookie at all. -/
inductive ReplyOk (q : Process L) (route : Route) : Reply → Prop
  | signedIn (a : Response) (header : String) (hroute : route = .setup ∨ route = .login)
      (hset : a.setCookie = some header) (hcsrf : csrfOf a ≠ "")
      (hnames : ∀ now c, receiveCookie header now = some c → Process.Names q c.sent (csrfOf a)) :
      ReplyOk q route (.now a)
  | signedOut (a : Response) (header : String) (hroute : route = .logout)
      (hset : a.setCookie = some header)
      (hgone : ∀ now, (receiveCookie header now).filter (now < ·.expires) = none) :
      ReplyOk q route (.now a)
  | plain (reply : Reply) (hnone : Api.knownCookie reply = none)
      (hroute : route = .setup ∨ route = .login → ∀ a, reply = .now a → a.status ≠ .ok)
      (hnow : route.isPublic = true → ∃ a, reply = .now a) : ReplyOk q route reply

/-- A public route is answered at once. -/
theorem now_of_public {c : Call} (h : c.route.isPublic = true) (st : State L) :
    ∃ a, (Api.serve c st).2 = .now a := by
  obtain ⟨r, req, m⟩ := c
  cases r with
  | health | authStatus => exact ⟨_, rfl⟩
  | setup =>
    show ∃ a, (Api.setup req m st).2 = .now a
    unfold Api.setup
    split
    · exact ⟨_, rfl⟩
    · dsimp only
      split <;> exact ⟨_, rfl⟩
  | login =>
    show ∃ a, (Api.login req m st).2 = .now a
    by_cases hallowed : (st.sessions.loginAllowed m.now req.remoteAddress).2 = true
    · rw [Api.login_of_allowed hallowed]
      repeat' split
      all_goals exact ⟨_, rfl⟩
    · rw [Bool.not_eq_true] at hallowed
      rw [Api.login_of_refused hallowed]
      exact ⟨_, rfl⟩
  | _ => cases h

/-- The reply to a request, in the daemon after it. -/
theorem replyOk_serve (c : Call) (d : Process L) (st : State L) :
    ReplyOk { d with main := { d.main with state := (Api.serve c st).1 } } c.route
      (Api.serve c st).2 := by
  by_cases hin : Api.SignsIn st c
  · obtain ⟨st', hrun, -⟩ := Api.exists_signIn hin
    have hnew : (Api.serve c st).1.sessions.sessions[
        SessionStore.randomToken c.moment.rawToken]? = some (Api.newSession c.moment) := by
      rw [hrun]
      exact (SessionStore.sessions_createSession _ _ _ _ _ _).trans (if_pos rfl)
    have hreply : (Api.serve c st).2 = (Api.signIn c.moment st').2 := by rw [hrun]
    rw [hreply]
    have hcsrf : csrfOf { status := .ok
                          body := .obj [("ok", .bool true),
                            ("csrf", .str (SessionStore.randomToken c.moment.rawCsrf))]
                          setCookie := none } = SessionStore.randomToken c.moment.rawCsrf := rfl
    refine .signedIn _ _ hin.1 rfl
      (hcsrf ▸ SessionStore.randomToken_ne_empty c.moment.rawCsrf) ?_
    intro now k hk _ s hs
    obtain rfl := Option.some.inj
      ((receiveCookie_buildSessionCookie _ c.moment.rawToken _ now).symm.trans hk)
    rw [SessionCookie.sent_randomToken] at hs
    obtain rfl := Option.some.inj (hnew.symm.trans hs)
    rfl
  · by_cases hout : Api.SignsOut st c
    · obtain ⟨st', hknown⟩ := Api.knownCookie_of_signsOut hout
      cases hreply : (Api.serve c st).2 with
      | now a =>
        rw [hreply] at hknown
        refine .signedOut a _ hout.1 hknown fun now => ?_
        rw [Api.receiveCookie_clear]
        simp
      | later w =>
        have hanswered := hout.2
        rw [Api.Answered, hreply] at hanswered
        cases hanswered
    · refine .plain _ (Api.knownCookie_of_neither hin hout) ?_ fun h => now_of_public h st
      intro hroute a hreply hok
      refine hin ⟨hroute, ?_⟩
      rw [Api.Answered, hreply]
      exact congrArg some hok

theorem ReplyOk.keeps {q q' : Process L} {route : Route} {reply : Reply} (h : ReplyOk q route reply)
    (hk : ∀ a header now c, reply = .now a → a.setCookie = some header →
      receiveCookie header now = some c → Process.Keeps q q' c.sent) :
    ReplyOk q' route reply := by
  cases h with
  | signedIn a header hroute hset hcsrf hnames =>
    exact .signedIn a header hroute hset hcsrf fun now c hc =>
      (hnames now c hc).keeps (hk a header now c rfl hset hc)
  | signedOut a header hroute hset hgone => exact .signedOut a header hroute hset hgone
  | plain reply hnone hroute hnow => exact .plain reply hnone hroute hnow

/-- Only for routes that are not public work is left to a worker. -/
theorem ReplyOk.not_public {q : Process L} {route : Route} {w : Work}
    (h : ReplyOk q route (.later w)) : route.isPublic = false := by
  cases h with
  | plain _ _ _ hnow =>
    by_contra hpublic
    rw [Bool.not_eq_false] at hpublic
    obtain ⟨a, ha⟩ := hnow hpublic
    cases ha

/-- A worker's answer has no cookie. -/
theorem ReplyOk.work {q q' : Process L} {route : Route} {w : Work} (h : ReplyOk q route (.later w))
    (st : State L) : ReplyOk q' route (.now (Api.runWork w st).2) := by
  have hpublic := h.not_public
  cases h with
  | plain _ hnone =>
    refine .plain _ ((Api.setCookie_runWork w st).trans hnone) ?_ fun _ => ⟨_, rfl⟩
    rintro (rfl | rfl) <;> cases hpublic

end Shell

/-- It may end in the application. -/
def ShellOrigin.enters : ShellOrigin → Bool
  | .init | .doSetup | .doLogin => true
  | _ => false

/-- It may be answered with a new session. -/
def ShellOrigin.signsIn : ShellOrigin → Bool
  | .doSetup | .doLogin => true
  | _ => false

/-- The routes a function asks for. -/
def ShellOrigin.Fits : ShellOrigin → Route → Prop
  | .init, r => r = .authStatus
  | .doSetup, r => r = .setup
  | .doLogin, r => r = .login
  | .doLogout, r => r = .logout
  | .save, r | .other, r => r.ofPage = true
  | .gone, _ => True

namespace Shell

/-- The answers with which a function enters the application. -/
def Enters : ShellOrigin → Response → Prop
  | .init, a => a.status = .ok ∧ (a.body.toObject.get "setupRequired").toBool = false ∧
      (a.body.toObject.get "authenticated").toBool = true
  | .doSetup, a | .doLogin, a => a.status = .ok
  | _, _ => False

theorem Enters.enters {o : ShellOrigin} {a : Response} (h : Enters o a) : o.enters = true := by
  cases o with
  | init | doSetup | doLogin => rfl
  | _ => exact h.elim

/-- It asks for a public route. -/
theorem Fits.isPublic {o : ShellOrigin} {r : Route} (h : o.Fits r) (henters : o.enters = true) :
    r.isPublic = true := by
  cases o with
  | init | doSetup | doLogin =>
    rw [show r = _ from h]
    rfl
  | _ => cases henters

/-- Only the two that may be answered with a session ask for the routes that give one. -/
theorem Fits.signsIn {o : ShellOrigin} {r : Route} (h : o.Fits r) (hhere : o ≠ .gone)
    (hroute : r = .setup ∨ r = .login) : o.signsIn = true := by
  cases o with
  | doSetup | doLogin => rfl
  | gone => exact absurd rfl hhere
  | init | doLogout =>
    rw [show r = _ from h] at hroute
    rcases hroute with hroute | hroute <;> cases hroute
  | save | other => rcases hroute with rfl | rfl <;> cases h

/-! ### What holds of a page -/

/-- The CSRF token is that of the session the cookie names. -/
def Agrees (q : Process L) (jar : Option SessionCookie) (x : String) : Prop :=
  x ≠ "" ∧ ∀ c, jar = some c → Process.Names q c.sent x

/-- What holds of a request in flight. -/
structure RequestOk (q : Process L) (jar : Option SessionCookie) (r : ShellRequest) : Prop where
  fits : r.origin.Fits r.route
  reply : ∀ reply, r.reply = some reply → ReplyOk q r.route reply
  arrived : r.reply = none → r.arrived = false
  sent : r.route.isPublic = false → r.route.changes = true →
    r.req.csrfToken ≠ "" ∧ Process.Names q (sessionToken r.req) r.req.csrfToken
  cookie : r.origin = .init → r.reply = none →
    sessionToken r.req = "" ∨ ∀ c, jar = some c → c.sent = sessionToken r.req
  answer : ∀ a, r.reply = some (.now a) → Enters r.origin a → r.origin = .init ∨ r.arrived = true →
    Agrees q jar (csrfOf a)

/-- What a function relies on while it waits. -/
def Waits (view : View) (requests : List ShellRequest) (id : Nat) : ShellOrigin → Prop
  | .init => ∀ r ∈ requests, r.origin.signsIn = false ∧ r.origin ≠ .doLogout
  | .doSetup | .doLogin => view ≠ .app ∧ ∀ r ∈ requests, r.origin.enters = true → r.id = id
  | _ => True

/-- What holds of a page at any time. -/
structure Sound (s : Shell L) : Prop where
  daemon : ∀ t e, Process.entry s.daemon t = some e → e.csrf ≠ ""
  page : s.view = .app → ∃ x, s.csrf = some x ∧ Agrees s.daemon s.jar x
  ids : (s.requests.map (·.id)).Nodup
  below : ∀ r ∈ s.requests, r.id < s.nextRequest
  waits : ∀ r ∈ s.requests, Waits s.view s.requests r.id r.origin
  requests : ∀ r ∈ s.requests, RequestOk s.daemon s.jar r

theorem Agrees.keeps {q q' : Process L} {jar : Option SessionCookie} {x : String}
    (h : Agrees q jar x) (hk : ∀ c, jar = some c → Process.Keeps q q' c.sent) : Agrees q' jar x :=
  ⟨h.1, fun c hc => (h.2 c hc).keeps (hk c hc)⟩

/-- Without a cookie there is nothing to agree with. -/
theorem Agrees.none {q : Process L} {jar : Option SessionCookie} {x : String} (h : Agrees q jar x) :
    Agrees q none x := ⟨h.1, nofun⟩

theorem RequestOk.none {q : Process L} {jar : Option SessionCookie} {r : ShellRequest}
    (h : RequestOk q jar r) : RequestOk q none r :=
  { h with
    cookie := fun _ _ => .inr nofun
    answer := fun a ha henters hwhen => (h.answer a ha henters hwhen).none }

/-- The request is over and was not for the page. -/
theorem RequestOk.gone {q : Process L} {jar : Option SessionCookie} {r : ShellRequest}
    (h : RequestOk q jar r) : RequestOk q jar { r with origin := .gone } where
  fits := trivial
  reply := h.reply
  arrived := h.arrived
  sent := h.sent
  cookie := nofun
  answer := fun _ _ henters => henters.elim

/-! ### Requests come and go -/

/-- Each request of the first list is one of the second, or was one that is gone. -/
def Descends (rs' rs : List ShellRequest) : Prop :=
  ∀ r' ∈ rs', ∃ r ∈ rs, r.id = r'.id ∧ (r'.origin = r.origin ∨ r'.origin = .gone)

theorem Waits.descends {view : View} {rs rs' : List ShellRequest} {id : Nat} {o : ShellOrigin}
    (h : Waits view rs id o) (hd : Descends rs' rs) : Waits view rs' id o := by
  cases o with
  | init =>
    intro r' hr'
    obtain ⟨r, hr, -, hsame | hgone⟩ := hd r' hr'
    · rw [hsame]
      exact h r hr
    · rw [hgone]
      exact ⟨rfl, nofun⟩
  | doSetup | doLogin =>
    refine ⟨h.1, ?_⟩
    intro r' hr' henters
    obtain ⟨r, hr, hid, hsame | hgone⟩ := hd r' hr'
    · rw [← hid]
      exact h.2 r hr (hsame ▸ henters)
    · rw [hgone] at henters
      cases henters
  | _ => trivial

theorem waits_gone (view : View) (rs : List ShellRequest) (id : Nat) :
    Waits view rs id .gone := trivial

/-- The requests of a page become others. -/
theorem Sound.descend {s : Shell L} (h : Sound s) {rs : List ShellRequest}
    (hd : Descends rs s.requests) (hids : (rs.map (·.id)).Nodup)
    (hok : ∀ r ∈ rs, RequestOk s.daemon s.jar r) : Sound { s with requests := rs } where
  daemon := h.daemon
  page := h.page
  ids := hids
  below := by
    intro r' hr'
    obtain ⟨r, hr, hid, -⟩ := hd r' hr'
    exact hid ▸ h.below r hr
  waits := by
    intro r' hr'
    obtain ⟨r, hr, hid, hsame | hgone⟩ := hd r' hr'
    · rw [hsame, ← hid]
      exact (h.waits r hr).descends hd
    · rw [hgone]
      exact waits_gone _ _ _
  requests := hok

theorem map_id_update (s : Shell L) (r : ShellRequest) :
    (s.update r).requests.map (·.id) = s.requests.map (·.id) := by
  rw [update, List.map_map]
  refine List.map_congr_left ?_
  intro r' _
  simp only [Function.comp_apply]
  split
  · next hid => exact hid.symm
  · rfl

theorem mem_update {s : Shell L} {r r' : ShellRequest} (h : r' ∈ (s.update r).requests) :
    r' = r ∨ r' ∈ s.requests ∧ r'.id ≠ r.id := by
  obtain ⟨r₀, hr₀, hr'⟩ := List.mem_map.mp h
  split at hr'
  · exact .inl hr'.symm
  · next hid => exact .inr ⟨hr' ▸ hr₀, hr' ▸ hid⟩

theorem descends_update {s : Shell L} {r r' : ShellRequest} (hr : r ∈ s.requests)
    (hid : r'.id = r.id) (horigin : r'.origin = r.origin ∨ r'.origin = .gone) :
    Descends (s.update r').requests s.requests := by
  intro r₁ hr₁
  rcases mem_update hr₁ with rfl | ⟨hmem, -⟩
  · exact ⟨r, hr, hid.symm, horigin⟩
  · exact ⟨r₁, hmem, rfl, .inl rfl⟩

/-- One request goes over to another state. -/
theorem Sound.update {s : Shell L} (h : Sound s) {r r' : ShellRequest} (hr : r ∈ s.requests)
    (hid : r'.id = r.id) (horigin : r'.origin = r.origin ∨ r'.origin = .gone)
    (hok : RequestOk s.daemon s.jar r') : Sound (s.update r') := by
  refine h.descend (descends_update hr hid horigin) ?_ ?_
  · have hids := h.ids
    rwa [← map_id_update s r'] at hids
  · intro r₁ hr₁
    rcases mem_update hr₁ with rfl | ⟨hmem, -⟩
    · exact hok
    · exact h.requests r₁ hmem

theorem Sound.forget {s : Shell L} (h : Sound s) (id : Nat) : Sound (s.forget id) := by
  refine h.descend ?_ ?_ ?_
  · intro r hr
    exact ⟨r, (List.mem_filter.mp hr).1, rfl, .inl rfl⟩
  · exact h.ids.sublist (List.filter_sublist.map _)
  · intro r hr
    exact h.requests r (List.mem_filter.mp hr).1

theorem find_eq_some {s : Shell L} {id : Nat} {r : ShellRequest} (h : s.find id = some r) :
    r ∈ s.requests ∧ r.id = id := by
  have hid := List.find?_some h
  exact ⟨List.mem_of_find?_eq_some h, by simpa using hid⟩

/-! ### Sending -/

/-- The request that is sent next. -/
def outgoing (s : Shell L) (origin : ShellOrigin) (route : Route) (query : List (String × String))
    (body : Option Json) (now : Int) : ShellRequest where
  id := s.nextRequest
  origin := origin
  route := route
  req := { cookie := s.cookieHeader now, query, body
           csrfToken := match route.method with
             | some .Get | none => ""
             | _ => s.csrf.getD "" }

theorem sessionToken_cookieHeader {s : Shell L} {t : Int} {req : Request}
    (hreq : req.cookie = s.cookieHeader t) :
    sessionToken req = "" ∨ ∃ c, s.jar = some c ∧ sessionToken req = c.sent := by
  have hempty : sessionToken { cookie := "" } = "" := by decide
  rw [cookieHeader] at hreq
  split at hreq
  · next c hjar =>
    split at hreq
    · exact .inr ⟨c, hjar, sessionToken_congr hreq⟩
    · exact .inl ((sessionToken_congr hreq).trans hempty)
  · exact .inl ((sessionToken_congr hreq).trans hempty)

/-- It is sent with the cookie of the browser, or with none. -/
theorem sessionToken_outgoing (s : Shell L) (origin : ShellOrigin) (route : Route)
    (query : List (String × String)) (body : Option Json) (now : Int) :
    sessionToken (s.outgoing origin route query body now).req = "" ∨
      ∃ c, s.jar = some c ∧ sessionToken (s.outgoing origin route query body now).req = c.sent :=
  sessionToken_cookieHeader (s := s) (t := now) rfl

theorem csrfToken_outgoing {route : Route} (h : route.changes = true) (s : Shell L)
    (origin : ShellOrigin) (query : List (String × String)) (body : Option Json) (now : Int) :
    (s.outgoing origin route query body now).req.csrfToken = s.csrf.getD "" := by
  rw [Route.changes] at h
  unfold outgoing
  dsimp only
  split
  · next hmethod => simp [hmethod] at h
  · next hmethod => simp [hmethod] at h
  · rfl

/-- What is sent out in the application, or changes nothing, is all right. -/
theorem Sound.outgoing_ok {s : Shell L} (h : Sound s) {origin : ShellOrigin} {route : Route}
    (hfits : origin.Fits route)
    (hview : s.view = .app ∨ route.isPublic = true ∨ route.changes = false)
    (query : List (String × String)) (body : Option Json) (now : Int) :
    RequestOk s.daemon s.jar (s.outgoing origin route query body now) where
  fits := hfits
  reply := nofun
  arrived := fun _ => rfl
  sent := by
    intro (hpublic : route.isPublic = false) (hchanges : route.changes = true)
    obtain happ | hpublic' | hreads := hview
    · obtain ⟨x, hx, hne, hagrees⟩ := h.page happ
      rw [csrfToken_outgoing hchanges, hx, Option.getD_some]
      refine ⟨hne, fun ht => ?_⟩
      rcases s.sessionToken_outgoing origin route query body now with hno | ⟨c, hjar, hsent⟩
      · exact absurd hno ht
      · rw [hsent] at ht ⊢
        exact hagrees c hjar ht
    · rw [hpublic] at hpublic'
      cases hpublic'
    · rw [hchanges] at hreads
      cases hreads
  cookie := by
    intro _ _
    rcases s.sessionToken_outgoing origin route query body now with hno | ⟨c, hjar, hsent⟩
    · exact .inl hno
    · refine .inr fun c' hc' => ?_
      obtain rfl := Option.some.inj (hjar.symm.trans hc')
      exact hsent.symm
  answer := nofun

/-- A function sends its request, if those that wait do not mind. -/
theorem Sound.send {s : Shell L} (h : Sound s) {origin : ShellOrigin} {route : Route}
    (hfits : origin.Fits route)
    (hview : s.view = .app ∨ route.isPublic = true ∨ route.changes = false)
    (hothers : ∀ r ∈ s.requests, Waits s.view (s.requests ++ [s.outgoing origin route query body now])
      r.id r.origin)
    (hself : Waits s.view (s.requests ++ [s.outgoing origin route query body now])
      s.nextRequest origin) :
    Sound (s.send origin route query body now) where
  daemon := h.daemon
  page := h.page
  ids := by
    show ((s.requests ++ [s.outgoing origin route query body now]).map (·.id)).Nodup
    rw [List.map_append, List.nodup_append]
    refine ⟨h.ids, by simp, ?_⟩
    rintro id hid id' hid' rfl
    obtain ⟨r, hr, rfl⟩ := List.mem_map.mp hid
    have hlt := h.below r hr
    have heq : r.id = s.nextRequest := by simpa [outgoing] using hid'
    omega
  below := by
    intro r hr
    show r.id < s.nextRequest + 1
    rcases List.mem_append.mp hr with hold | hnew
    · exact Nat.lt_succ_of_lt (h.below r hold)
    · obtain rfl := List.mem_singleton.mp hnew
      exact Nat.lt_succ_self _
  waits := by
    intro r hr
    rcases List.mem_append.mp hr with hold | hnew
    · exact hothers r hold
    · obtain rfl := List.mem_singleton.mp hnew
      exact hself
  requests := by
    intro r hr
    rcases List.mem_append.mp hr with hold | hnew
    · exact h.requests r hold
    · obtain rfl := List.mem_singleton.mp hnew
      exact h.outgoing_ok hfits hview query body now

/-! ### The daemon goes on -/

/-- The page, the browser, a request or an answer has the session token. -/
def Knows (s : Shell L) (t : String) : Prop :=
  (∃ c, s.jar = some c ∧ c.sent = t) ∨ ∃ r ∈ s.requests, sessionToken r.req = t ∨
    ∃ a header now c, r.reply = some (.now a) ∧ a.setCookie = some header ∧
      receiveCookie header now = some c ∧ c.sent = t

theorem RequestOk.keeps {s : Shell L} {q : Process L} {r : ShellRequest}
    (h : RequestOk s.daemon s.jar r) (hr : r ∈ s.requests)
    (hk : ∀ t, s.Knows t → Process.Keeps s.daemon q t) : RequestOk q s.jar r where
  fits := h.fits
  reply := by
    intro reply hreply
    refine (h.reply reply hreply).keeps ?_
    rintro a header now c rfl hset hc
    exact hk _ (.inr ⟨r, hr, .inr ⟨a, header, now, c, hreply, hset, hc, rfl⟩⟩)
  arrived := h.arrived
  sent := by
    intro hpublic hchanges
    obtain ⟨hne, hnames⟩ := h.sent hpublic hchanges
    exact ⟨hne, hnames.keeps (hk _ (.inr ⟨r, hr, .inl rfl⟩))⟩
  cookie := h.cookie
  answer := fun a ha henters hwhen =>
    (h.answer a ha henters hwhen).keeps fun c hc => hk _ (.inl ⟨c, hc, rfl⟩)

/-- The daemon goes on and takes no token that is known. -/
theorem Sound.goesOn {s : Shell L} (h : Sound s) {q : Process L}
    (hk : ∀ t, s.Knows t → Process.Keeps s.daemon q t)
    (hne : ∀ t e, Process.entry q t = some e → e.csrf ≠ "") : Sound { s with daemon := q } where
  daemon := hne
  page := by
    intro happ
    obtain ⟨x, hx, hagrees⟩ := h.page happ
    exact ⟨x, hx, hagrees.keeps fun c hc => hk _ (.inl ⟨c, hc, rfl⟩)⟩
  ids := h.ids
  below := h.below
  waits := h.waits
  requests := fun r hr => (h.requests r hr).keeps hr hk

/-! ### The page goes on -/

/-- The page turns to a view. -/
theorem Sound.turn {s : Shell L} (h : Sound s) {v : View} {x : Option String} {b : Bool}
    (hpage : v = .app → ∃ y, x = some y ∧ Agrees s.daemon s.jar y)
    (hwaits : v = .app → s.view = .app ∨ ∀ r ∈ s.requests, r.origin.signsIn = false) :
    Sound { s with view := v, csrf := x, busy := b } where
  daemon := h.daemon
  page := hpage
  ids := h.ids
  below := h.below
  waits := by
    intro r hr
    have hwait := h.waits r hr
    show Waits v s.requests r.id r.origin
    cases horigin : r.origin with
    | init =>
      rw [horigin] at hwait
      exact hwait
    | doSetup | doLogin =>
      rw [horigin] at hwait
      refine ⟨fun happ => ?_, hwait.2⟩
      rcases hwaits happ with hold | hnone
      · exact hwait.1 hold
      · have hno := hnone r hr
        rw [horigin] at hno
        cases hno
    | _ => trivial
  requests := h.requests

/-- A function that goes on leaves the view and the token alone, or it leaves the
application, or it enters it. -/
theorem done_cases (s : Shell L) (origin : ShellOrigin) (answer : Option Response) :
    ∃ v x b, s.done origin answer = { s with view := v, csrf := x, busy := b } ∧
      (v = s.view ∧ x = s.csrf ∨ v ≠ .app ∨
        ∃ a, answer = some a ∧ Enters origin a ∧ v = .app ∧ x = some (csrfOf a)) := by
  have hfirst : ∃ v x, (if answer.any (·.status = .unauthorized) && origin ≠ .gone then
      s.unauthorized else s) = { s with view := v, csrf := x } ∧
        (v = s.view ∧ x = s.csrf ∨ v ≠ .app) := by
    split
    · refine ⟨_, _, rfl, .inr ?_⟩
      split
      · nofun
      · next hview => exact hview
    · exact ⟨s.view, s.csrf, rfl, .inl ⟨rfl, rfl⟩⟩
  obtain ⟨v, x, hs, hkept⟩ := hfirst
  have hkept' : v = s.view ∧ x = s.csrf ∨ v ≠ .app ∨
      ∃ a, answer = some a ∧ Enters origin a ∧ v = .app ∧ x = some (csrfOf a) :=
    hkept.imp_right .inl
  unfold done
  rw [hs]
  cases origin with
  | init =>
    cases answer with
    | none => exact ⟨_, _, _, rfl, .inr (.inl nofun)⟩
    | some a =>
      dsimp only [initDone]
      split
      · next hok =>
        split
        · exact ⟨_, _, _, rfl, .inr (.inl nofun)⟩
        · next hset =>
          split
          · next hauth =>
            rw [Bool.not_eq_true] at hset
            exact ⟨_, _, _, rfl, .inr (.inr ⟨a, rfl, ⟨hok, hset, hauth⟩, rfl, rfl⟩)⟩
          · exact ⟨_, _, _, rfl, .inr (.inl nofun)⟩
      · exact ⟨_, _, _, rfl, .inr (.inl nofun)⟩
  | doSetup | doLogin =>
    cases answer with
    | none => exact ⟨v, x, false, rfl, hkept'⟩
    | some a =>
      dsimp only [signInDone]
      split
      · next hok => exact ⟨_, _, _, rfl, .inr (.inr ⟨a, rfl, hok, rfl, rfl⟩)⟩
      · exact ⟨v, x, false, rfl, hkept'⟩
  | doLogout => exact ⟨_, _, _, rfl, .inr (.inl nofun)⟩
  | save => exact ⟨v, x, false, rfl, hkept'⟩
  | other | gone => exact ⟨v, x, s.busy, rfl, hkept'⟩

/-- A function goes on, and if it enters the application, it was the one that could and its
answer agrees with the cookie. -/
theorem Sound.done {s : Shell L} (h : Sound s) {origin : ShellOrigin} {answer : Option Response}
    (henters : ∀ a, answer = some a → Enters origin a →
      Agrees s.daemon s.jar (csrfOf a) ∧ ∀ r ∈ s.requests, r.origin.signsIn = false) :
    Sound (s.done origin answer) := by
  obtain ⟨v, x, b, hdone, hcases⟩ := done_cases s origin answer
  rw [hdone]
  rcases hcases with ⟨rfl, rfl⟩ | hleft | ⟨a, ha, hin, -, rfl⟩
  · exact h.turn h.page .inl
  · exact h.turn (fun happ => absurd happ hleft) fun happ => absurd happ hleft
  · obtain ⟨hagrees, hnone⟩ := henters a ha hin
    exact h.turn (fun _ => ⟨_, rfl, hagrees⟩) fun _ => .inr hnone

/-! ### The events -/

/-- The request that the daemon serves. -/
def served (s : Shell L) : ShellEvent → Option Call
  | .serve id m =>
    match s.find id with
    | some r => if r.reply.isSome then none else some (r.call m)
    | none => none
  | .elsewhere (.main (.request c)) => some c
  | _ => none

/-- Signing in or out. -/
def signs : ShellEvent → Bool
  | .doSetup _ _ _ | .doLogin _ _ | .doLogout _ => true
  | _ => false

/-- No token is drawn that is known already, and nobody signs in or out on the page while a
request that may enter the application is under way: one of another sign-in, or one of the
two for the status that a loading page has sent (`init`). -/
structure Calm (s : Shell L) (e : ShellEvent) : Prop where
  fresh : ∀ c, s.served e = some c → Api.SignsIn s.daemon.state c →
    ¬s.Knows (SessionStore.randomToken c.moment.rawToken)
  alone : signs e = true → ∀ r ∈ s.requests, r.origin.enters = false

/-- What the page is told about itself when it is loaded. -/
theorem csrfOf_authStatus {req : Request} {m : Moment} {st : State L} {a : Response}
    (h : (Api.authStatus req m st).2 = .now a) (hin : Enters .init a) :
    sessionToken req ≠ "" ∧ ∃ e,
      (Api.authStatus req m st).1.sessions.sessions[sessionToken req]? = some e ∧
        csrfOf a = e.csrf := by
  obtain rfl := Reply.now.inj h
  have hvalid : (st.sessions.validate m.now (sessionToken req)).2 = true := by
    have hauth := hin.2.2
    cases hv : (st.sessions.validate m.now (sessionToken req)).2 with
    | true => rfl
    | false =>
      rw [hv] at hauth
      cases hauth
  obtain ⟨s, hne, halive⟩ := (validate_iff_liveSession st m.now req).mp hvalid
  have hentry := SessionStore.sessions_validate st.sessions m.now (sessionToken req)
    (sessionToken req)
  rw [if_pos ⟨rfl, hne⟩, halive, Option.map_some] at hentry
  refine ⟨hne, _, hentry, ?_⟩
  rw [← SessionStore.csrfFor_of_some hentry, hvalid]
  rfl

/-- The daemon serves a request of the page. -/
theorem Sound.serve {s : Shell L} (h : Sound s) {r : ShellRequest} {m : Moment}
    (hr : r ∈ s.requests) (hreply : r.reply = none)
    (hfresh : Api.SignsIn s.daemon.state (r.call m) →
      ¬s.Knows (SessionStore.randomToken m.rawToken)) :
    Sound ((s.withState (Api.serve (r.call m) s.daemon.state).1).update
      { r with reply := some (Api.serve (r.call m) s.daemon.state).2 }) := by
  have hon : Sound (s.withState (Api.serve (r.call m) s.daemon.state).1) := by
    refine h.goesOn (fun t ht => ?_) fun t e he => ?_
    · exact Process.keeps_serve rfl fun hin heq => hfresh hin (heq ▸ ht)
    · exact Process.csrf_ne_empty_serve rfl h.daemon he
  have hok := hon.requests r hr
  refine hon.update hr rfl (.inl rfl)
    { fits := hok.fits, reply := ?_, arrived := nofun, sent := hok.sent, cookie := nofun,
      answer := ?_ }
  · intro reply hserved
    obtain rfl := Option.some.inj hserved
    exact replyOk_serve (r.call m) s.daemon s.daemon.state
  · intro a ha henters hwhen
    -- The answer has not arrived, so it is one to `init`.
    have horigin : r.origin = .init := hwhen.resolve_right (by simp [hok.arrived hreply])
    have hroute : r.route = .authStatus := by
      have hfits := hok.fits
      rwa [horigin] at hfits
    have hcall : r.call m = ⟨.authStatus, r.req, m⟩ := by rw [ShellRequest.call, hroute]
    have ha : (Api.serve (r.call m) s.daemon.state).2 = .now a := Option.some.inj ha
    rw [hcall] at ha hon ⊢
    have henters : Enters .init a := horigin ▸ henters
    obtain ⟨hne, e, hentry, hcsrf⟩ := csrfOf_authStatus ha henters
    rw [hcsrf]
    refine ⟨hon.daemon _ e hentry, fun c hc _ e' he' => ?_⟩
    rcases hok.cookie horigin hreply with hno | hsame
    · exact absurd hno hne
    · rw [hsame c hc] at he'
      obtain rfl := Option.some.inj (hentry.symm.trans he')
      rfl

/-- A worker is done with a request of the page. -/
theorem Sound.workDone {s : Shell L} (h : Sound s) {r : ShellRequest} {w : Work}
    (hr : r ∈ s.requests) (hreply : r.reply = some (.later w)) :
    Sound ((s.withState (Api.runWork w s.daemon.state).1).update
      { r with reply := some (.now (Api.runWork w s.daemon.state).2) }) := by
  have hsame : ∀ t, Process.entry (s.withState (Api.runWork w s.daemon.state).1).daemon t =
      Process.entry s.daemon t := by
    intro t
    show (Api.runWork w s.daemon.state).1.sessions.sessions[t]? = _
    rw [Api.sessions_runWork]
    rfl
  have hon : Sound (s.withState (Api.runWork w s.daemon.state).1) := by
    refine h.goesOn (fun t _ e he => ?_) fun t e he => ?_
    · exact ⟨e, (hsame t).symm.trans he, rfl⟩
    · exact h.daemon t e ((hsame t).symm.trans he)
  have hok := hon.requests r hr
  have hwork := hok.reply _ hreply
  refine hon.update hr rfl (.inl rfl)
    { fits := hok.fits, reply := ?_, arrived := nofun, sent := hok.sent, cookie := nofun,
      answer := ?_ }
  · intro reply hserved
    obtain rfl := Option.some.inj hserved
    exact hwork.work s.daemon.state
  · intro a _ henters
    -- A function that may enter the application asks for a public route.
    have hpublic := Fits.isPublic hok.fits (Enters.enters henters)
    rw [hwork.not_public] at hpublic
    cases hpublic

/-- An answer arrives while nobody relies on the cookie. -/
theorem Sound.newJar {s : Shell L} (h : Sound s) (hview : s.view ≠ .app)
    (hnobody : ∀ r ∈ s.requests, r.origin.enters = true → r.origin ≠ .init ∧ r.arrived = false)
    (jar : Option SessionCookie) : Sound { s with jar } where
  daemon := h.daemon
  page := fun happ => absurd happ hview
  ids := h.ids
  below := h.below
  waits := h.waits
  requests := by
    intro r hr
    have hok := h.requests r hr
    refine { hok with cookie := ?_, answer := ?_ }
    · intro horigin
      exact absurd horigin (hnobody r hr (by rw [horigin]; rfl)).1
    · intro a _ henters hwhen
      obtain ⟨hinit, hno⟩ := hnobody r hr henters.enters
      rcases hwhen with horigin | harrived
      · exact absurd horigin hinit
      · rw [hno] at harrived
        cases harrived

/-- The browser loses its cookie. -/
theorem Sound.noJar {s : Shell L} (h : Sound s) : Sound { s with jar := none } where
  daemon := h.daemon
  page := by
    intro happ
    obtain ⟨x, hx, hagrees⟩ := h.page happ
    exact ⟨x, hx, hagrees.none⟩
  ids := h.ids
  below := h.below
  waits := h.waits
  requests := fun r hr => (h.requests r hr).none

/-- What a request has arrived with is all right if its answer is. -/
theorem RequestOk.arrive {q : Process L} {jar : Option SessionCookie} {r : ShellRequest}
    {a : Response} (h : RequestOk q jar r) (hreply : r.reply = some (.now a))
    (hgiven : Enters r.origin a → r.origin ≠ .init → Agrees q jar (csrfOf a)) :
    RequestOk q jar { r with arrived := true } := by
  refine { h with arrived := fun hnone => ?_, answer := fun a' ha' henters _ => ?_ }
  · rw [hreply] at hnone
    cases hnone
  · obtain rfl := Reply.now.inj (Option.some.inj (hreply.symm.trans ha'))
    by_cases horigin : r.origin = .init
    · exact h.answer _ hreply henters (.inl horigin)
    · exact hgiven henters horigin

/-- An answer arrives in the browser. -/
theorem Sound.arrive {s : Shell L} (h : Sound s) {r : ShellRequest} {a : Response}
    (hr : r ∈ s.requests) (hreply : r.reply = some (.now a)) (hnew : r.arrived = false)
    (hhere : r.origin ≠ .gone) (now : Int) :
    Sound ((s.takeCookie a now).update { r with arrived := true }) := by
  have hok := h.requests r hr
  have hshape := hok.reply _ hreply
  generalize hreply' : Reply.now a = reply at hshape
  cases hshape with
  | signedIn a' header hroute hset hcsrf hnames =>
    obtain rfl := Reply.now.inj hreply'
    have hsigns := Fits.signsIn hok.fits hhere hroute
    obtain ⟨hview, hone⟩ : s.view ≠ .app ∧ ∀ r' ∈ s.requests, r'.origin.enters = true →
        r'.id = r.id := by
      have hwait := h.waits r hr
      cases horigin : r.origin with
      | doSetup | doLogin =>
        rw [horigin] at hwait
        exact hwait
      | _ =>
        rw [horigin] at hsigns
        cases hsigns
    have hinit : r.origin ≠ .init := by
      intro horigin
      rw [horigin] at hsigns
      cases hsigns
    have htake : s.takeCookie a now =
        { s with jar := (receiveCookie header now).filter (now < ·.expires) } := by
      rw [takeCookie, hset]
    rw [htake]
    have hjar := h.newJar hview (fun r' hr' henters => by
      obtain rfl := List.inj_on_of_nodup_map h.ids hr' hr (hone r' hr' henters)
      exact ⟨hinit, hnew⟩) ((receiveCookie header now).filter (now < ·.expires))
    refine hjar.update hr rfl (.inl rfl) ((hjar.requests r hr).arrive hreply fun _ _ => ⟨hcsrf, ?_⟩)
    intro c hc
    exact hnames now c (Option.filter_eq_some_iff.mp hc).1
  | signedOut a' header hroute hset hgone =>
    obtain rfl := Reply.now.inj hreply'
    have htake : s.takeCookie a now = { s with jar := none } := by
      rw [takeCookie, hset]
      exact congrArg (fun jar => { s with jar }) (hgone now)
    rw [htake]
    have hok' := h.noJar.requests r hr
    refine h.noJar.update hr rfl (.inl rfl) (hok'.arrive hreply fun henters _ => ?_)
    have hpublic := Fits.isPublic hok.fits henters.enters
    rw [hroute] at hpublic
    cases hpublic
  | plain reply hnone hroute =>
    have htake : s.takeCookie a now = s := by
      rw [← hreply'] at hnone
      have hnone : a.setCookie = none := hnone
      rw [takeCookie, hnone]
    rw [htake]
    refine h.update hr rfl (.inl rfl) (hok.arrive hreply fun henters hinit => ?_)
    have hfits := hok.fits
    cases horigin : r.origin with
    | init => exact absurd horigin hinit
    | doSetup =>
      rw [horigin] at hfits henters
      exact absurd henters (hroute (.inl hfits) a hreply'.symm)
    | doLogin =>
      rw [horigin] at hfits henters
      exact absurd henters (hroute (.inr hfits) a hreply'.symm)
    | _ =>
      rw [horigin] at henters
      exact henters.elim

/-- The page goes on with an answer that has arrived. -/
theorem Sound.resume {s : Shell L} (h : Sound s) {r : ShellRequest} {a : Response}
    (hr : r ∈ s.requests) (hreply : r.reply = some (.now a)) (harrived : r.arrived = true) :
    Sound ((s.forget r.id).done r.origin (some a)) := by
  refine (h.forget r.id).done ?_
  rintro a' ha henters
  obtain rfl := Option.some.inj ha
  refine ⟨(h.requests r hr).answer a hreply henters (.inr harrived), ?_⟩
  intro r' hr'
  obtain ⟨hmem, hid⟩ := List.mem_filter.mp hr'
  have hid : r'.id ≠ r.id := by simpa using hid
  have hwait := h.waits r' hmem
  -- A sign-in is alone.
  cases horigin : r'.origin with
  | doSetup | doLogin =>
    rw [horigin] at hwait
    exact absurd (hwait.2 r hr henters.enters).symm hid
  | _ => rfl

/-- The page goes on without an answer. -/
theorem Sound.fail {s : Shell L} (h : Sound s) {r : ShellRequest} (hr : r ∈ s.requests) :
    Sound ((s.update { r with origin := .gone }).done r.origin none) := by
  have hgone : Sound (s.update { r with origin := .gone }) :=
    h.update hr rfl (.inr rfl) (h.requests r hr).gone
  exact hgone.done nofun

/-- `init` sends its request while nobody signs in or out. -/
theorem Sound.init {s : Shell L} (h : Sound s)
    (hnobody : ∀ r ∈ s.requests, r.origin.signsIn = false ∧ r.origin ≠ .doLogout) (now : Int) :
    Sound (s.init now) := by
  have hnobody' : ∀ r ∈ s.requests ++ [s.outgoing .init .authStatus [] none now],
      r.origin.signsIn = false ∧ r.origin ≠ .doLogout := by
    intro r hr
    rcases List.mem_append.mp hr with hold | hnew
    · exact hnobody r hold
    · obtain rfl := List.mem_singleton.mp hnew
      exact ⟨rfl, nofun⟩
  refine h.send rfl (.inr (.inl rfl)) ?_ hnobody'
  intro r hr
  have hno := (hnobody r hr).1
  cases horigin : r.origin with
  | init => exact hnobody'
  | doSetup | doLogin =>
    rw [horigin] at hno
    cases hno
  | _ => trivial

/-- A page is left, and another one is loaded. -/
theorem Sound.load {s : Shell L} (h : Sound s) (now : Int) : Sound (s.load now) := by
  have hgone : ∀ r ∈ s.abandon.requests, r.origin = .gone := by
    intro r hr
    obtain ⟨r₀, -, rfl⟩ := List.mem_map.mp hr
    rfl
  have hleft : Sound ({ s.abandon with view := .loading, csrf := none, busy := false } : Shell L) := by
    refine Sound.turn (s := s.abandon) (h.descend ?_ ?_ ?_) nofun nofun
    · intro r' hr'
      obtain ⟨r, hr, rfl⟩ := List.mem_map.mp hr'
      exact ⟨r, hr, rfl, .inr rfl⟩
    · have hids := h.ids
      rw [List.map_map]
      exact hids
    · intro r' hr'
      obtain ⟨r, hr, rfl⟩ := List.mem_map.mp hr'
      exact (h.requests r hr).gone
  have hnobody : ∀ r ∈ s.abandon.requests, r.origin.signsIn = false ∧ r.origin ≠ .doLogout := by
    intro r hr
    rw [hgone r hr]
    exact ⟨rfl, nofun⟩
  refine (hleft.init hnobody now).init ?_ now
  intro r hr
  rcases List.mem_append.mp hr with hold | hnew
  · exact hnobody r hold
  · obtain rfl := List.mem_singleton.mp hnew
    exact ⟨rfl, nofun⟩

/-- Somebody signs in while no other sign-in is under way. -/
theorem Sound.signIn {s : Shell L} (h : Sound s) {origin : ShellOrigin} {route : Route}
    (hfits : origin.Fits route) (hsigns : origin.signsIn = true) (hview : s.view ≠ .app)
    (halone : ∀ r ∈ s.requests, r.origin.enters = false) (body : Option Json) (now : Int) :
    Sound ({ s with busy := true }.send origin route [] body now) := by
  have henters : origin.enters = true := by
    cases origin with
    | doSetup | doLogin => rfl
    | _ => cases hsigns
  have hbusy : Sound { s with busy := true } := h.turn h.page .inl
  have hself : Waits s.view (s.requests ++
      [({ s with busy := true } : Shell L).outgoing origin route [] body now])
      s.nextRequest origin := by
    have hone : ∀ r ∈ s.requests ++
        [({ s with busy := true } : Shell L).outgoing origin route [] body now],
        r.origin.enters = true → r.id = s.nextRequest := by
      intro r hr hin
      rcases List.mem_append.mp hr with hold | hnew
      · rw [halone r hold] at hin
        cases hin
      · obtain rfl := List.mem_singleton.mp hnew
        rfl
    cases origin with
    | doSetup | doLogin => exact ⟨hview, hone⟩
    | _ => cases hsigns
  refine hbusy.send hfits (.inr (.inl (Fits.isPublic hfits henters))) ?_ hself
  intro r hr
  have hno := halone r hr
  cases horigin : r.origin with
  | init | doSetup | doLogin =>
    rw [horigin] at hno
    cases hno
  | _ => trivial

/-- Any other function sends a request; if it signs out, no sign-in is under way. -/
theorem Sound.sendOther {s : Shell L} (h : Sound s) {origin : ShellOrigin} {route : Route}
    (hfits : origin.Fits route) (henters : origin.enters = false)
    (hview : s.view = .app ∨ route.isPublic = true ∨ route.changes = false)
    (halone : origin = .doLogout → ∀ r ∈ s.requests, r.origin.enters = false)
    (query : List (String × String)) (body : Option Json) (now : Int) :
    Sound (s.send origin route query body now) := by
  refine h.send hfits hview ?_ ?_
  · intro r hr
    have hwait := h.waits r hr
    have hnew : origin.signsIn = false := by
      cases origin with
      | doSetup | doLogin => cases henters
      | _ => rfl
    cases horigin : r.origin with
    | init =>
      rw [horigin] at hwait
      intro r' hr'
      rcases List.mem_append.mp hr' with hold | hlast
      · exact hwait r' hold
      · obtain rfl := List.mem_singleton.mp hlast
        refine ⟨hnew, fun hlogout => ?_⟩
        have hno := halone hlogout r hr
        rw [horigin] at hno
        cases hno
    | doSetup | doLogin =>
      rw [horigin] at hwait
      refine ⟨hwait.1, fun r' hr' hin => ?_⟩
      rcases List.mem_append.mp hr' with hold | hlast
      · exact hwait.2 r' hold hin
      · obtain rfl := List.mem_singleton.mp hlast
        exact absurd hin (by simp [outgoing, henters])
    | _ => trivial
  · cases origin with
    | init | doSetup | doLogin => cases henters
    | _ => trivial

/-! ### One lemma for each event -/

theorem Sound.step_doSetup {s : Shell L} (h : Sound s) {pw pw2 : String} {now : Int}
    (hcalm : Calm s (.doSetup pw pw2 now)) : Sound (s.step (.doSetup pw pw2 now)) := by
  dsimp only [Shell.step]
  split
  · next hview =>
    unfold Shell.doSetup
    split
    · exact h
    · have hfits : ShellOrigin.Fits .doSetup .setup := rfl
      exact h.signIn hfits rfl (by rw [hview.1]; nofun) (hcalm.alone rfl) _ now
  · exact h

theorem Sound.step_doLogin {s : Shell L} (h : Sound s) {pw : String} {now : Int}
    (hcalm : Calm s (.doLogin pw now)) : Sound (s.step (.doLogin pw now)) := by
  dsimp only [Shell.step]
  split
  · next hview =>
    have hfits : ShellOrigin.Fits .doLogin .login := rfl
    exact h.signIn hfits rfl (by rw [hview.1]; nofun) (hcalm.alone rfl) _ now
  · exact h

theorem Sound.step_doLogout {s : Shell L} (h : Sound s) {now : Int}
    (hcalm : Calm s (.doLogout now)) : Sound (s.step (.doLogout now)) := by
  dsimp only [Shell.step]
  split
  · next hview =>
    have hfits : ShellOrigin.Fits .doLogout .logout := rfl
    exact h.sendOther hfits rfl (.inl hview) (fun _ => hcalm.alone rfl) _ _ now
  · exact h

theorem Sound.step_request {s : Shell L} (h : Sound s) (holds : Bool) (route : Route)
    (query : List (String × String)) (body : Option Json) (now : Int) :
    Sound (s.step (.request holds route query body now)) := by
  dsimp only [Shell.step]
  split
  · next hsend =>
    have hview : s.view = .app ∨ route.isPublic = true ∨ route.changes = false := by
      refine hsend.2.imp_right fun hmethod => .inr ?_
      rcases hmethod with hmethod | hmethod <;> rw [Route.changes, hmethod]
    split
    · split
      · exact h
      · have hbusy : Sound { s with busy := true } := h.turn h.page .inl
        have hfits : ShellOrigin.Fits .save route := hsend.1
        exact hbusy.sendOther hfits rfl hview (fun hno => by cases hno) query body now
    · have hfits : ShellOrigin.Fits .other route := hsend.1
      exact h.sendOther hfits rfl hview (fun hno => by cases hno) query body now
  · exact h

theorem Sound.step_serve {s : Shell L} (h : Sound s) {id : Nat} {m : Moment}
    (hcalm : Calm s (.serve id m)) : Sound (s.step (.serve id m)) := by
  dsimp only [Shell.step]
  split
  · next r hfind =>
    split
    · exact h
    · next hreply =>
      refine h.serve (find_eq_some hfind).1 (by simpa using hreply) (hcalm.fresh (r.call m) ?_)
      simp only [served, hfind, if_neg hreply]
  · exact h

theorem Sound.step_workDone {s : Shell L} (h : Sound s) (id : Nat) :
    Sound (s.step (.workDone id)) := by
  dsimp only [Shell.step]
  split
  · next r hfind =>
    split
    · next w hreply => exact h.workDone (find_eq_some hfind).1 hreply
    · exact h
  · exact h

theorem Sound.step_arrive {s : Shell L} (h : Sound s) (id : Nat) (now : Int) :
    Sound (s.step (.arrive id now)) := by
  dsimp only [Shell.step]
  split
  · next r hfind =>
    split
    · next a hreply =>
      split
      · exact h
      · next hnew =>
        rw [Bool.or_eq_true, not_or, decide_eq_true_eq, Bool.not_eq_true] at hnew
        exact h.arrive (find_eq_some hfind).1 hreply hnew.1 hnew.2 now
    · exact h
  · exact h

theorem Sound.step_resume {s : Shell L} (h : Sound s) (id : Nat) :
    Sound (s.step (.resume id)) := by
  dsimp only [Shell.step]
  split
  · next r hfind =>
    obtain ⟨hr, rfl⟩ := find_eq_some hfind
    split
    · next a hreply =>
      split
      · next harrived => exact h.resume hr hreply harrived
      · exact h
    · exact h
  · exact h

theorem Sound.step_fail {s : Shell L} (h : Sound s) (id : Nat) : Sound (s.step (.fail id)) := by
  dsimp only [Shell.step]
  split
  · next r hfind =>
    split
    · exact h
    · exact h.fail (find_eq_some hfind).1
  · exact h

theorem Sound.step_elsewhere {s : Shell L} (h : Sound s) {e : Process.Happening}
    (hcalm : Calm s (.elsewhere e)) : Sound (s.step (.elsewhere e)) := by
  refine h.goesOn (fun t ht => ?_) fun t s' hs' => Process.csrf_ne_empty_next h.daemon hs'
  refine Process.keeps_next ?_
  rintro c rfl hin rfl
  exact hcalm.fresh c rfl hin ht

/-- **Every event keeps it.** -/
theorem Sound.step {s : Shell L} (h : Sound s) {e : ShellEvent} (hcalm : Calm s e) :
    Sound (s.step e) := by
  cases e with
  | load now => exact h.load now
  | doSetup pw pw2 now => exact h.step_doSetup hcalm
  | doLogin pw now => exact h.step_doLogin hcalm
  | doLogout now => exact h.step_doLogout hcalm
  | request holds route query body now => exact h.step_request holds route query body now
  | serve id m => exact h.step_serve hcalm
  | workDone id => exact h.step_workDone id
  | arrive id now => exact h.step_arrive id now
  | resume id => exact h.step_resume id
  | fail id => exact h.step_fail id
  | elsewhere e => exact h.step_elsewhere hcalm

/-- A request that passes the session check passes the CSRF check. -/
theorem RequestOk.verified {q : Process L} {jar : Option SessionCookie} {r : ShellRequest}
    (h : RequestOk q jar r) (hpublic : r.route.isPublic = false) (hchanges : r.route.changes = true)
    {now : Int} {session : Session} (hlive : LiveSession q.state now r.req session) :
    CsrfVerified q.state now r.req := by
  obtain ⟨hne, hnames⟩ := h.sent hpublic hchanges
  have hsame := hnames hlive.1 session (Process.alive_eq_some.mp hlive.2).1
  refine ⟨session, hlive, ?_, hsame.symm⟩
  rw [hsame]
  exact hne

theorem sound_opened {p : Process L} (h : ∀ t e, Process.entry p t = some e → e.csrf ≠ "")
    (jar : Option SessionCookie) (now : Int) : Sound (opened p jar now) := by
  have hblank : Sound ({ daemon := p, jar } : Shell L) :=
    { daemon := h
      page := fun happ => by cases happ
      ids := List.nodup_nil
      below := fun _ hr => absurd hr List.not_mem_nil
      waits := fun _ hr => absurd hr List.not_mem_nil
      requests := fun _ hr => absurd hr List.not_mem_nil }
  exact hblank.load now

/-- **A page that is signed in is never told `forbidden`.** In every calm run of a page (nobody
signs in or out while another sign-in or a status request of `init` is under way), with
whatever cookie its browser had, and with whatever other clients do meanwhile: while the page
shows the application it has a CSRF token, the one of the session that its browser's cookie
names; and when the daemon comes to serve an unsafe request of the page, sent at any time
before, and the session check accepts it, then so does the CSRF check. -/
theorem page_never_forbidden {p : Process L}
    (hcsrf : ∀ t e, Process.entry p t = some e → e.csrf ≠ "") {jar : Option SessionCookie}
    {now : Int} {es : List ShellEvent} (hcalm : (machine L).Along Calm (opened p jar now) es) :
    (((machine L).run (opened p jar now) es).view = .app →
      ∃ x, ((machine L).run (opened p jar now) es).csrf = some x ∧
        Agrees ((machine L).run (opened p jar now) es).daemon
          ((machine L).run (opened p jar now) es).jar x) ∧
    ∀ r ∈ ((machine L).run (opened p jar now) es).requests,
      r.route.isPublic = false → r.route.changes = true → ∀ t session,
        LiveSession ((machine L).run (opened p jar now) es).daemon.state t r.req session →
        CsrfVerified ((machine L).run (opened p jar now) es).daemon.state t r.req := by
  have hsound : Sound ((machine L).run (opened p jar now) es) :=
    invariant_run (fun s e h hc => h.step hc) (sound_opened hcsrf jar now) hcalm
  refine ⟨hsound.page, ?_⟩
  intro r hr hpublic hchanges t session hlive
  exact (hsound.requests r hr).verified hpublic hchanges hlive

/-! ### Settings that are saved -/

/-- The browser of somebody who is signed in opens the page, -/
def savingStart : Shell Reference.library :=
  opened { main := { state := Reference.initial.setValue "web/passhash" (.str "record")
                     schedulerState := ∅ }
           pool := [] } (some ⟨"sid", 10⟩) 0

/-- and then the settings are saved. -/
def savingRun : List ShellEvent :=
  [.serve 0 (Reference.moment ""), .arrive 0 1, .resume 0,
    .request true .putPrefs [] (some (.obj [])) 1]

def savingRequest : ShellRequest where
  id := 2
  origin := .save
  route := .putPrefs
  req := Reference.request (.obj [])

theorem calm_of_not_served {s : Shell L} {e : ShellEvent} (hserved : s.served e = none)
    (hsigns : signs e = false) : Calm s e where
  fresh := by
    intro c hc
    rw [hserved] at hc
    cases hc
  alone := by
    intro hin
    rw [hsigns] at hin
    cases hin

theorem calm_savingRun : (machine _).Along Calm savingStart savingRun := by
  refine ⟨⟨?_, fun hin => by cases hin⟩, calm_of_not_served rfl rfl, calm_of_not_served rfl rfl,
    calm_of_not_served rfl rfl, trivial⟩
  -- The daemon is asked for the status only.
  intro c hc hin
  obtain rfl := Option.some.inj hc
  rcases hin.1 with hroute | hroute <;> cases hroute

theorem csrf_savingStart : ∀ t e, Process.entry savingStart.daemon t = some e → e.csrf ≠ "" := by
  intro t e he
  have he : ((∅ : StringMap Session).insert "sid" { csrf := "csrf", lastSeen := 0 })[t]? =
    some e := he
  rw [StringMap.get_insert] at he
  split at he
  · obtain rfl := Option.some.inj he
    decide
  · simp at he

/-- The page shows the application, and the request passes both checks. -/
theorem savingRequest_verified :
    (∃ x, ((machine _).run savingStart savingRun).csrf = some x ∧
      Agrees ((machine _).run savingStart savingRun).daemon
        ((machine _).run savingStart savingRun).jar x) ∧
    CsrfVerified ((machine _).run savingStart savingRun).daemon.state 1 savingRequest.req := by
  have hlast : ((machine _).run savingStart savingRun).requests.getLast? = some savingRequest := rfl
  have hlive : LiveSession ((machine _).run savingStart savingRun).daemon.state 1
      savingRequest.req { csrf := "csrf", lastSeen := 1 } := ⟨by decide, by decide⟩
  obtain ⟨hpage, hverified⟩ := page_never_forbidden csrf_savingStart calm_savingRun
  exact ⟨hpage (by decide), hverified savingRequest (List.mem_of_getLast? hlast) rfl rfl 1 _ hlive⟩

end Shell

end TiBackup
