import TiBackup.Session.Cookie
import TiBackup.Stores.Protected

/-!
# TiBackup.Session.SetCookie

**Who is given a session cookie, and for how long.** Only a request that signs somebody in
is answered with one, and it names the session that was entered in the table, for exactly
as long as the table keeps it unused. Signing out takes the cookie away. No other answer,
of a handler or of a worker, touches the cookie of the browser.
-/

namespace TiBackup

open Lib Lib.Machine

variable {L : Library}

namespace Api

/-! ### Answers without a cookie -/

/-- The cookie an answer sets that is known when the handler returns. -/
def knownCookie : Reply → Option String
  | .now r | .later (.respond r) => r.setCookie
  | .later _ => none

/-- The handler body sets no cookie. -/
def SetsNoCookie (k : Handler L) : Prop := ∀ req m st, knownCookie (k req m st).2 = none

theorem Delivers.setsNoCookie {d : Response → Reply} (hd : Delivers d) {e : Response}
    (he : e.setCookie = none) : knownCookie (d e) = none := by
  rcases hd with rfl | rfl
  · exact he
  · exact he

theorem setsNoCookie_withAuth {d : Response → Reply} (hd : Delivers d) {k : Handler L}
    (hk : SetsNoCookie k) : SetsNoCookie (withAuth d k) := by
  intro req m st
  unfold withAuth
  dsimp only
  split
  · exact hk req m _
  · exact hd.setsNoCookie rfl

theorem setsNoCookie_withCsrf {d : Response → Reply} (hd : Delivers d) {k : Handler L}
    (hk : SetsNoCookie k) : SetsNoCookie (withCsrf d k) := by
  intro req m st
  unfold withCsrf
  split
  · exact hk req m st
  · exact hd.setsNoCookie rfl

theorem setCookie_jobBodyError {st : State L} {job : TiBackupJob} {e : Response}
    (h : jobBodyError st job = some e) : e.setCookie = none := by
  unfold jobBodyError at h
  split at h
  · cases h
    rfl
  · split at h
    · cases h
      rfl
    · cases h

theorem setCookie_resolveBrowseTarget {st : State L} {root uuid path : String} {e : Response}
    (h : resolveBrowseTarget st root uuid path = .error e) : e.setCookie = none := by
  have hbase : ∀ {e}, browseBase st root uuid = .error e → e.setCookie = none := by
    intro e hbase
    unfold browseBase at hbase
    dsimp only at hbase
    repeat' split at hbase
    all_goals cases hbase
    all_goals rfl
  unfold resolveBrowseTarget at h
  dsimp only at h
  split at h
  · next hbrowse =>
    cases h
    exact hbase hbrowse
  · repeat' split at h
    all_goals cases h
    all_goals rfl

/-- The errors of the shared checks come without a cookie. -/
theorem setsNoCookie_bodies {r : Route} (h : r = .browse ∨ r = .postJob ∨ r = .mkdir ∨
    ∃ name, r = .putJob name) : SetsNoCookie (handle (L := L) r) := by
  rcases h with rfl | rfl | rfl | ⟨name, rfl⟩
  · refine setsNoCookie_withAuth (.inl rfl) ?_
    intro req m st
    dsimp only [reads]
    split
    · next herror => exact setCookie_resolveBrowseTarget herror
    · rfl
  · refine setsNoCookie_withAuth (.inl rfl) (setsNoCookie_withCsrf (.inl rfl) ?_)
    intro req m st
    dsimp only
    split
    · rfl
    · split
      · next herror => exact setCookie_jobBodyError herror
      · split <;> rfl
  · refine setsNoCookie_withAuth (.inl rfl) (setsNoCookie_withCsrf (.inl rfl) ?_)
    intro req m st
    dsimp only
    split
    · rfl
    · split
      · next herror => exact setCookie_resolveBrowseTarget herror
      · split
        · rfl
        · split <;> rfl
  · refine setsNoCookie_withAuth (.inl rfl) (setsNoCookie_withCsrf (.inl rfl) ?_)
    intro req m st
    dsimp only
    split
    · rfl
    · split
      · next herror => exact setCookie_jobBodyError herror
      · repeat' split
        all_goals rfl

theorem setsNoCookie_handle {r : Route} (hsetup : r ≠ .setup) (hlogin : r ≠ .login)
    (hlogout : r ≠ .logout) : SetsNoCookie (handle (L := L) r) := by
  cases r with
  | setup => exact absurd rfl hsetup
  | login => exact absurd rfl hlogin
  | logout => exact absurd rfl hlogout
  | health | authStatus => exact fun _ _ _ => rfl
  | getPrefs | getJobs | getJob | getDevices | getPartition | getPbsList | getPbs | getSshList
  | getSsh | mainLog | runLogs | runLog | rsyncLogs | rsyncLog | getScript =>
    refine setsNoCookie_withAuth (.inl rfl) ?_
    intro req m st
    dsimp only [reads]
    repeat' split
    all_goals rfl
  | browse => exact setsNoCookie_bodies (.inl rfl)
  | postJob => exact setsNoCookie_bodies (.inr (.inl rfl))
  | mkdir => exact setsNoCookie_bodies (.inr (.inr (.inl rfl)))
  | putJob name => exact setsNoCookie_bodies (.inr (.inr (.inr ⟨name, rfl⟩)))
  | getDatastores | getDatastoreGroups | sshBrowse =>
    refine setsNoCookie_withAuth (.inr rfl) ?_
    intro req m st
    dsimp only [reads]
    repeat' split
    all_goals rfl
  | testMail | pbsTest | sshTest | sshMkdir =>
    refine setsNoCookie_withAuth (.inr rfl) (setsNoCookie_withCsrf (.inr rfl) ?_)
    intro req m st
    dsimp only [reads]
    repeat' split
    all_goals rfl
  | _ =>
    refine setsNoCookie_withAuth (.inl rfl) (setsNoCookie_withCsrf (.inl rfl) ?_)
    intro req m st
    dsimp only
    repeat' split
    all_goals rfl

theorem setCookie_pbsQueryDone (auth : Int) (r : Int × Json) :
    (pbsQueryDone auth r).setCookie = none := by
  unfold pbsQueryDone
  split
  · rfl
  · split <;> rfl

/-- A worker sets a cookie only if it was told to when it was left behind. -/
theorem setCookie_runWork (w : Work) (st : State L) :
    (runWork w st).2.setCookie = knownCookie (.later w) := by
  cases w with
  | testMail p recipient =>
    simp only [runWork, testMailDone]
    split <;> rfl
  | pbsDatastores pb => exact setCookie_pbsQueryDone _ _
  | pbsGroups pb datastore => exact setCookie_pbsQueryDone _ _
  | sshBrowse srv target =>
    simp only [runWork, sshBrowseDone]
    split <;> rfl
  | sshMkdir srv full =>
    simp only [runWork, sshMkdirDone]
    split <;> rfl
  | _ => rfl

/-! ### The three answers with one -/

/-- The cookie that takes the session away. -/
theorem receiveCookie_clear (st : State L) (secure : Bool) (now : Int) :
    receiveCookie (buildSessionCookie st "" secure true) now =
      some { token := "", expires := now } := by
  have hplain : ("tibackup_sid=; HttpOnly; SameSite=Strict; Path=/; Max-Age=0".toList.splitOn
      ';').map cookieItem = [some ("tibackup_sid", ""), none, some ("SameSite", "Strict"),
        some ("Path", "/"), some ("Max-Age", "0")] := by decide
  have hsecure : ("tibackup_sid=; HttpOnly; SameSite=Strict; Path=/; Secure; Max-Age=0".toList.splitOn
      ';').map cookieItem = [some ("tibackup_sid", ""), none, some ("SameSite", "Strict"),
        some ("Path", "/"), none, some ("Max-Age", "0")] := by decide
  have hzero : parseInt "0" = some 0 := by decide
  cases secure with
  | true =>
    have hcookie : buildSessionCookie st "" true true =
      "tibackup_sid=; HttpOnly; SameSite=Strict; Path=/; Secure; Max-Age=0" := rfl
    rw [receiveCookie, hcookie, hsecure]
    simp [hzero, List.findSome?]
  | false =>
    have hcookie : buildSessionCookie st "" false true =
      "tibackup_sid=; HttpOnly; SameSite=Strict; Path=/; Max-Age=0" := rfl
    rw [receiveCookie, hcookie, hplain]
    simp [hzero, List.findSome?]

theorem setCookie_of_answered {req : Request} {m : Moment} {st : State L}
    (h : Answered (login req m st)) : ∃ setCookie, setCookieOf (login req m st).2 = some setCookie := by
  by_cases hallowed : (st.sessions.loginAllowed m.now req.remoteAddress).2 = true
  · rw [login_of_allowed hallowed] at h ⊢
    split
    · next hempty =>
      rw [if_pos hempty] at h
      cases h
    · next hempty =>
      rw [if_neg hempty] at h
      split
      · next hwrong =>
        rw [if_pos hwrong] at h
        cases h
      · exact ⟨_, rfl⟩
  · rw [Bool.not_eq_true] at hallowed
    rw [login_of_refused hallowed] at h
    cases h

/-- Signing in ends in a new session, with the configuration of its lifetime as it was. -/
theorem exists_signIn {c : Call} {st : State L} (h : SignsIn st c) : ∃ st' : State L,
    serve c st = signIn c.moment st' ∧ DiskMain.sessionTtl st' = DiskMain.sessionTtl st := by
  obtain ⟨r, req, m⟩ := c
  obtain ⟨hroute | hroute, hanswered⟩ := h
  · obtain rfl : r = .setup := hroute
    have hanswered : Answered (setup req m st) := hanswered
    refine ⟨setPassword (bodyPassword req) m.rawSalt st, ?_,
      Process.sessionTtl_congr (getValue_setPassword (by decide) _ _ st)⟩
    show setup req m st = _
    unfold setup at hanswered ⊢
    split
    · next hset =>
      rw [if_pos hset] at hanswered
      cases hanswered
    · next hset =>
      rw [if_neg hset] at hanswered
      dsimp only at hanswered ⊢
      split
      · next hshort =>
        rw [if_pos hshort] at hanswered
        cases hanswered
      · rfl
  · obtain rfl : r = .login := hroute
    obtain ⟨setCookie, hset⟩ := setCookie_of_answered hanswered
    obtain ⟨st', hrun, -, httl⟩ := login_signIn hset
    exact ⟨st', hrun, httl⟩

/-- Signing out. -/
theorem knownCookie_of_signsOut {c : Call} {st : State L} (h : SignsOut st c) :
    ∃ st' : State L, knownCookie (serve c st).2 =
      some (buildSessionCookie st' "" st'.secureCookies true) := by
  obtain ⟨r, req, m⟩ := c
  obtain ⟨hroute, hanswered⟩ := h
  obtain rfl : r = .logout := hroute
  have hanswered : Answered (logout req m st) := hanswered
  show ∃ st', knownCookie (logout req m st).2 = _
  unfold logout at hanswered ⊢
  rcases guarded_cases st req m .now _ with ⟨-, hrun⟩ | ⟨e, he, hrun⟩
  · rw [hrun]
    exact ⟨_, rfl⟩
  · rw [hrun] at hanswered
    rcases he with rfl | rfl <;> cases hanswered

theorem knownCookie_of_neither {c : Call} {st : State L} (hin : ¬SignsIn st c)
    (hout : ¬SignsOut st c) : knownCookie (serve c st).2 = none := by
  obtain ⟨r, req, m⟩ := c
  by_cases hsetup : r = .setup
  · subst hsetup
    have hanswered : ¬Answered (setup req m st) := fun h => hin ⟨.inl rfl, h⟩
    show knownCookie (setup req m st).2 = none
    unfold setup at hanswered ⊢
    split
    · rfl
    · next hset =>
      rw [if_neg hset] at hanswered
      dsimp only at hanswered ⊢
      split
      · rfl
      · next hlong =>
        rw [if_neg hlong] at hanswered
        exact absurd rfl hanswered
  by_cases hlogin : r = .login
  · subst hlogin
    have hanswered : ¬Answered (login req m st) := fun h => hin ⟨.inr rfl, h⟩
    show knownCookie (login req m st).2 = none
    by_cases hallowed : (st.sessions.loginAllowed m.now req.remoteAddress).2 = true
    · rw [login_of_allowed hallowed] at hanswered ⊢
      split
      · rfl
      · next hempty =>
        rw [if_neg hempty] at hanswered
        split
        · rfl
        · next hright =>
          rw [if_neg hright] at hanswered
          exact absurd rfl hanswered
    · rw [Bool.not_eq_true] at hallowed
      rw [login_of_refused hallowed]
      rfl
  by_cases hlogout : r = .logout
  · subst hlogout
    have hanswered : ¬Answered (logout req m st) := fun h => hout ⟨rfl, h⟩
    show knownCookie (logout req m st).2 = none
    unfold logout at hanswered ⊢
    rcases guarded_cases st req m .now _ with ⟨-, hrun⟩ | ⟨e, he, hrun⟩
    · rw [hrun] at hanswered
      exact absurd rfl hanswered
    · rw [hrun]
      rcases he with rfl | rfl <;> rfl
  · exact setsNoCookie_handle hsetup hlogin hlogout req m st

end Api

namespace Process

/-- **A cookie for each session, and a session for each cookie.** In every run of a process
that was started with the configured TTL: a request that signs somebody in is answered with
a cookie that names the session entered for it, and the browser keeps it for the TTL of the
session table; one that signs somebody out is answered with the cookie that takes it away,
and the session is gone; no other answer sets a cookie, whether a handler gives it or a
worker. -/
theorem cookies_issued {p : Process L} (httl : p.state.sessions.ttl = DiskMain.sessionTtl p.state)
    (hpool : p.pool = []) (es : List Happening) :
    (∀ c, Api.SignsIn ((machine L).run p es).state c → ∃ header,
      Api.knownCookie (Api.serve c ((machine L).run p es).state).2 = some header ∧
      receiveCookie header c.moment.created = some
        { token := SessionStore.randomToken c.moment.rawToken
          expires := c.moment.created +
            ((machine L).run p (es ++ [.main (.request c)])).state.sessions.ttl } ∧
      entry ((machine L).run p (es ++ [.main (.request c)]))
        (SessionStore.randomToken c.moment.rawToken) = some (Api.newSession c.moment)) ∧
    (∀ c, Api.SignsOut ((machine L).run p es).state c → ∃ header,
      Api.knownCookie (Api.serve c ((machine L).run p es).state).2 = some header ∧
      receiveCookie header c.moment.now = some { token := "", expires := c.moment.now } ∧
      entry ((machine L).run p (es ++ [.main (.request c)])) (sessionToken c.req) = none) ∧
    (∀ c, ¬Api.SignsIn ((machine L).run p es).state c →
      ¬Api.SignsOut ((machine L).run p es).state c →
      Api.knownCookie (Api.serve c ((machine L).run p es).state).2 = none) ∧
    ∀ i c answer, (machine L).out ((machine L).run p es) (.done i) = some (c, answer) →
      answer.setCookie = none := by
  refine ⟨?_, ?_, fun c hin hout => Api.knownCookie_of_neither hin hout, ?_⟩
  · intro c hin
    obtain ⟨st', hrun, hsame⟩ := Api.exists_signIn hin
    have hlifetime : ((machine L).run p (es ++ [.main (.request c)])).state.sessions.ttl =
        DiskMain.sessionTtl st' := by
      rw [ttl_run httl, hsame]
      exact (sessionTtl_congr (getValue_run (by decide) p es)).symm
    refine ⟨_, by rw [hrun]; rfl, ?_, ?_⟩
    · rw [hlifetime]
      exact receiveCookie_buildSessionCookie _ c.moment.rawToken _ c.moment.created
    · rw [run_append, run_cons, run_nil]
      exact entry_request_of_signsIn hin
  · intro c hout
    obtain ⟨st', hknown⟩ := Api.knownCookie_of_signsOut hout
    refine ⟨_, hknown, Api.receiveCookie_clear st' _ _, ?_⟩
    rw [run_append, run_cons, run_nil]
    exact entry_request_of_signsOut hout
  · intro i c answer hdone
    cases htask : ((machine L).run p es).pool[i]? with
    | none =>
      rw [out_done_of_none _ htask] at hdone
      cases hdone
    | some t =>
      obtain ⟨pre, post, -, hwork⟩ := pool_origin hpool (List.mem_of_getElem? htask)
      rw [out_done _ htask] at hdone
      obtain rfl := congrArg Prod.snd (Option.some.inj hdone)
      rw [Api.setCookie_runWork, ← hwork]
      -- Who signs in or out is answered at once.
      refine Api.knownCookie_of_neither ?_ ?_
      · intro hin
        obtain ⟨st', hrun, -⟩ := Api.exists_signIn hin
        rw [hrun] at hwork
        cases hwork
      · intro hout
        have hanswered := hout.2
        rw [Api.Answered, hwork] at hanswered
        cases hanswered

/-- The setup of a new process is answered with a cookie. -/
theorem setup_cookie : ∃ header,
    Api.knownCookie (Api.serve setupCall reference.state).2 = some header ∧
    receiveCookie header 1 = some
      { token := SessionStore.randomToken Reference.rawToken
        expires := 1 + ((machine _).run reference [.main (.request setupCall)]).state.sessions.ttl } ∧
    entry ((machine _).run reference [.main (.request setupCall)])
      (SessionStore.randomToken Reference.rawToken) = some (Api.newSession setupCall.moment) :=
  (cookies_issued rfl rfl []).1 setupCall ⟨.inl rfl, rfl⟩

end Process

end TiBackup
