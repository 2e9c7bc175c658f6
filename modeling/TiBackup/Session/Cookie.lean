import TiBackup.Auth.Login
import TiBackup.Model.Browser
import TiBackup.Model.Reference
import TiBackup.Session.History

/-!
# TiBackup.Session.Cookie

**The session cookie and the session.** The cookie gets the session TTL as its lifetime at
login, and keeps it; the session is good for the TTL after every request. So the browser
loses the cookie of a session that the daemon would still accept, unless no request of the
browser comes later than a second after the login (`cookie_expires_with_session_iff`).
-/

namespace TiBackup

open Lib Lib.Machine

variable {L : Library}

/-! ### Reading the cookie -/

theorem trimmed_cons {space : Char → Bool} {c : Char} (h : space c = true) (cs : List Char) :
    trimmed space (c :: cs) = trimmed space cs := by
  rw [trimmed, List.dropWhile_cons_of_pos h, trimmed]

/-- A name and a value with an equals sign between them. -/
theorem cookieItem_pair {name value : List Char} (hne : name ≠ []) (hsign : '=' ∉ name)
    (hspace : ∀ c ∈ name ++ '=' :: value, isAsciiSpace c = false) :
    cookieItem (name ++ '=' :: value) = some (String.ofList name, String.ofList value) := by
  obtain ⟨hlt, hname, hvalue⟩ := cut_append_cons hsign value
  have hpos : 0 < (name ++ '=' :: value).idxOf '=' := by
    rw [idxOf_append_cons hsign]
    exact List.length_pos_iff.mpr hne
  rw [cookieItem, trimmed_eq_self hspace]
  simp only [if_pos (And.intro hpos hlt), hname, hvalue]

theorem cookieItem_space (cs : List Char) : cookieItem (' ' :: cs) = cookieItem cs := by
  rw [cookieItem, trimmed_cons rfl, cookieItem]

theorem sessionTtl_pos (st : State L) : 0 < DiskMain.sessionTtl st := by
  rw [DiskMain.sessionTtl]
  split
  · next ttl _ =>
    split
    · decide
    · next hpos =>
      have hlt : 0 < ttl := Int32.not_le.mp hpos
      exact Int32.lt_iff_toInt_lt.mp hlt
  · decide

/-- The TTL that is written into the cookie is the one of the sessions. -/
theorem buildSessionCookie_eq (st : State L) (token : String) (secure : Bool) :
    Api.buildSessionCookie st token secure = "tibackup_sid=" ++ token ++
      "; HttpOnly; SameSite=Strict; Path=/" ++ (if secure then "; Secure" else "") ++
        "; Max-Age=" ++ (DiskMain.sessionTtl st).repr := by
  simp only [Api.buildSessionCookie, Bool.false_eq_true, if_false]
  refine congrArg _ (congrArg Int.repr ?_)
  rw [DiskMain.sessionTtl]
  cases (st.getValue "web/session_ttl").toInt? with
  | none => rfl
  | some ttl =>
    dsimp only
    split
    · rfl
    · rfl

/-- No item of a cookie goes across a semicolon. -/
theorem items_cons {item : List Char} (h : ';' ∉ item) (rest : List Char) :
    ((item ++ ';' :: rest).splitOn ';').map cookieItem =
      cookieItem item :: (rest.splitOn ';').map cookieItem := by
  rw [List.splitOn_append_cons_self_of_not_mem h, List.map_cons]

/-- Neither a semicolon nor white space. -/
def isItemChar (c : Char) : Bool := c ≠ ';' && !isAsciiSpace c

/-- A name and a value of such characters make up one item. -/
theorem cookieItem_of_all {name value : List Char} (hname : name.all isItemChar = true)
    (hne : name ≠ []) (hsign : '=' ∉ name) (hvalue : value.all isItemChar = true) :
    ';' ∉ name ++ '=' :: value ∧
      cookieItem (name ++ '=' :: value) = some (String.ofList name, String.ofList value) := by
  have hall : ∀ c ∈ name ++ '=' :: value, isItemChar c = true := by
    rw [← List.all_eq_true, List.all_append, List.all_cons, hname, hvalue]
    rfl
  refine ⟨fun hmem => absurd (hall _ hmem) (by decide), cookieItem_pair hne hsign ?_⟩
  intro c hc
  have hchar := hall c hc
  rw [isItemChar, Bool.and_eq_true, Bool.not_eq_true'] at hchar
  exact hchar.2

theorem all_itemChar_token (raw : RandomBytes) :
    (SessionStore.randomToken raw).toList.all isItemChar = true := by
  have hdigit : ∀ n < 64, isItemChar (base64Digit true n) = true := by decide
  rw [SessionStore.randomToken, toBase64Url, String.toList_ofList, List.all_eq_true]
  intro c hc
  obtain ⟨n, hn, rfl⟩ := mem_base64Digits hc
  exact hdigit n hn

theorem all_itemChar_repr (n : Nat) : n.repr.toList.all isItemChar = true := by
  rw [Nat.toList_repr, List.all_eq_true]
  intro c hc
  have hdigit := Nat.isDigit_of_mem_toDigits (by decide) (by decide) hc
  have htext := isTextSpace_of_isDigit hdigit
  rw [isTextSpace, Bool.or_eq_false_iff, Bool.or_eq_false_iff] at htext
  have hne : c ≠ ';' := by
    intro heq
    rw [heq] at hdigit
    exact absurd hdigit (by decide)
  simp [isItemChar, hne, htext.1.1]

/-- The token is read off the first item. -/
theorem cookieItem_token (raw : RandomBytes) :
    ';' ∉ "tibackup_sid=".toList ++ (SessionStore.randomToken raw).toList ∧
      cookieItem ("tibackup_sid=".toList ++ (SessionStore.randomToken raw).toList) =
        some ("tibackup_sid", SessionStore.randomToken raw) := by
  have hitem := @cookieItem_of_all "tibackup_sid".toList _ (by decide) (by decide) (by decide)
    (all_itemChar_token raw)
  have hsign : "tibackup_sid=".toList = "tibackup_sid".toList ++ ['='] := by decide
  rw [String.ofList_toList, String.ofList_toList] at hitem
  rw [hsign, List.append_assoc]
  exact hitem

/-- The lifetime is read off the last item. -/
theorem cookieItem_maxAge (n : Nat) :
    ((" Max-Age=".toList ++ n.repr.toList).splitOn ';').map cookieItem =
      [some ("Max-Age", n.repr)] := by
  obtain ⟨hnone, hitem⟩ := @cookieItem_of_all "Max-Age".toList _ (by decide) (by decide)
    (by decide) (all_itemChar_repr n)
  have hblank : " Max-Age=".toList ++ n.repr.toList =
      ' ' :: ("Max-Age".toList ++ '=' :: n.repr.toList) := by
    have hname : " Max-Age=".toList = ' ' :: ("Max-Age".toList ++ ['=']) := by decide
    rw [hname, List.cons_append, List.append_assoc]
    rfl
  have hnone' : ';' ∉ ' ' :: ("Max-Age".toList ++ '=' :: n.repr.toList) := by
    rw [List.mem_cons, not_or]
    exact ⟨by decide, hnone⟩
  rw [hblank, List.splitOn_eq_singleton hnone', List.map_singleton, cookieItem_space, hitem,
    String.ofList_toList, String.ofList_toList]

/-- The items of a session cookie. -/
theorem items_buildSessionCookie (st : State L) (raw : RandomBytes) (secure : Bool) {n : Nat}
    (hn : DiskMain.sessionTtl st = n) :
    ((Api.buildSessionCookie st (SessionStore.randomToken raw) secure).toList.splitOn ';').map
      cookieItem = some ("tibackup_sid", SessionStore.randomToken raw) :: none ::
        some ("SameSite", "Strict") :: some ("Path", "/") ::
          ((if secure then [none] else []) ++ [some ("Max-Age", n.repr)]) := by
  obtain ⟨hnone, htoken⟩ := cookieItem_token raw
  have hflags : "; HttpOnly; SameSite=Strict; Path=/".toList = ';' :: (" HttpOnly".toList ++
      ';' :: (" SameSite=Strict".toList ++ ';' :: " Path=/".toList)) := by decide
  have hsecure : "; Secure".toList = ';' :: " Secure".toList := by decide
  have hage : "; Max-Age=".toList = ';' :: " Max-Age=".toList := by decide
  have hrepr : (DiskMain.sessionTtl st).repr = n.repr := by
    rw [hn]
    rfl
  rw [buildSessionCookie_eq, hrepr, String.toList_append, String.toList_append,
    String.toList_append, String.toList_append, String.toList_append, hflags, hage]
  generalize "tibackup_sid=".toList ++ (SessionStore.randomToken raw).toList = first at hnone htoken
  cases secure with
  | true =>
    simp only [if_true, hsecure, List.append_assoc, List.cons_append]
    rw [items_cons hnone, items_cons (by decide), items_cons (by decide), items_cons (by decide),
      items_cons (by decide), cookieItem_maxAge, htoken]
    rfl
  | false =>
    simp only [Bool.false_eq_true, if_false, String.toList_empty, List.nil_append,
      List.append_assoc, List.cons_append]
    rw [items_cons hnone, items_cons (by decide), items_cons (by decide), items_cons (by decide),
      cookieItem_maxAge, htoken]
    rfl

/-- The browser keeps the token, and the cookie for as long as the TTL. -/
theorem receiveCookie_buildSessionCookie (st : State L) (raw : RandomBytes) (secure : Bool)
    (now : Int) :
    receiveCookie (Api.buildSessionCookie st (SessionStore.randomToken raw) secure) now =
      some { token := SessionStore.randomToken raw, expires := now + DiskMain.sessionTtl st } := by
  obtain ⟨n, hn⟩ := Int.eq_ofNat_of_zero_le (sessionTtl_pos st).le
  rw [receiveCookie, items_buildSessionCookie st raw secure hn, hn]
  cases secure with
  | true => simp [List.findSome?, parseInt_repr]
  | false => simp [List.findSome?, parseInt_repr]

/-! ### Logging in -/

theorem ttl_loginAllowed (s : SessionStore) (now : Int) (clientId : String) :
    (s.loginAllowed now clientId).1.ttl = s.ttl := by
  rw [SessionStore.loginAllowed]
  split
  · rfl
  · split
    · rfl
    · split
      · rfl
      · rfl

/-- A login that sets the cookie creates a session, with the TTL as it was. -/
theorem login_signIn {st : State L} {req : Request} {m : Moment} {setCookie : String}
    (h : setCookieOf (Api.login req m st).2 = some setCookie) :
    ∃ st' : State L, Api.login req m st = Api.signIn m st' ∧ st'.sessions.ttl = st.sessions.ttl ∧
      DiskMain.sessionTtl st' = DiskMain.sessionTtl st := by
  by_cases hallowed : (st.sessions.loginAllowed m.now req.remoteAddress).2 = true
  · rw [Api.login_of_allowed hallowed] at h ⊢
    split
    · next hempty =>
      rw [if_pos hempty] at h
      cases h
    · next hempty =>
      rw [if_neg hempty] at h
      split
      · next hwrong =>
        rw [if_pos hwrong] at h
        cases h
      · refine ⟨_, rfl, ?_, ?_⟩
        · split
          · exact ttl_loginAllowed _ _ _
          · exact ttl_loginAllowed _ _ _
        · split
          · rw [DiskMain.sessionTtl, Api.setPassword, State.getValue_setValue_of_ne _ (by decide),
              State.getValue_setValue_of_ne _ (by decide)]
            rfl
          · rfl
  · rw [Bool.not_eq_true] at hallowed
    rw [Api.login_of_refused hallowed] at h
    cases h

/-- What the browser keeps of a login, and the table after it. -/
theorem signedIn_login {st : State L} {req : Request} {m : Moment} {setCookie : String}
    (h : setCookieOf (Api.login req m st).2 = some setCookie) :
    ∃ rest : SessionStore, rest.ttl = st.sessions.ttl ∧
      (Api.login req m st).1.sessions =
        (rest.createSession m.rawToken m.rawCsrf m.later m.created).1 ∧
      receiveCookie setCookie m.created = some
        { token := SessionStore.randomToken m.rawToken,
          expires := m.created + DiskMain.sessionTtl st } := by
  obtain ⟨st', hlogin, httl, hconf⟩ := login_signIn h
  rw [hlogin] at h ⊢
  refine ⟨st'.sessions, httl, rfl, ?_⟩
  obtain rfl := Option.some.inj h
  rw [← hconf]
  exact receiveCookie_buildSessionCookie _ m.rawToken _ m.created

/-! ### Runs of a browser -/

namespace SignedIn

/-- The browser has the cookie exactly when the daemon accepts the session, up to one second
at the end. -/
structure AgreeAt (s : SignedIn) (now : Int) : Prop where
  accepted : s.Holds (now + 1) → s.Accepts now
  held : s.Accepts (now + 1) → s.Holds now

/-- The session of a login was used last at `used`, and the cookie is that of the login. -/
structure UsedAt (login used clock : Int) (s : SignedIn) : Prop where
  expires : s.cookie.expires = login + s.sessions.ttl
  token : s.cookie.token ≠ ""
  login_le : login ≤ used
  le_clock : used ≤ clock
  accepts : ∀ now, clock ≤ now → (s.Accepts now ↔ now ≤ used + s.sessions.ttl)

theorem accepts_iff {s : SignedIn} (h : s.cookie.token ≠ "") (now : Int) : s.Accepts now ↔
    (SessionStore.alive s.sessions.ttl now s.sessions.sessions[s.cookie.token]?).isSome = true := by
  rw [Accepts, SessionStore.validate_snd]
  simp [h]

theorem next_request {s : SignedIn} {now : Int} (h : s.Holds now) :
    machine.next s (.request now) =
      { s with sessions := (s.sessions.validate now s.cookie.token).1 } := by
  simp only [Machine.next, machine, step, if_pos h]

/-- Without the cookie a request does nothing to the sessions. -/
theorem next_request_of_not_holds {s : SignedIn} {now : Int} (h : ¬ s.Holds now) :
    machine.next s (.request now) = s := by
  simp only [Machine.next, machine, step, if_neg h]
  rfl

/-- Other calls leave the session alone. -/
theorem UsedAt.other {login used clock : Int} {s : SignedIn} (h : UsedAt login used clock s)
    {c : SessionStore.Call} (hc : c.token ≠ s.cookie.token) (hstart : clock ≤ c.start)
    (hstop : c.start ≤ c.stop) : UsedAt login used c.stop (machine.next s (.other c)) := by
  have hsame : SessionStore.AliveAt s.cookie.token clock s.sessions s.sessions := ⟨rfl, rfl⟩
  have hskip := hsame.skip hc hstart hstop
  have httl : (SessionStore.machine.next s.sessions c).ttl = s.sessions.ttl := hskip.1
  refine ⟨?_, h.token, h.login_le, h.le_clock.trans (hstart.trans hstop), ?_⟩
  · exact h.expires.trans (by rw [← httl]; rfl)
  · intro now hnow
    have halive := (hskip.mono hnow).2
    have hcookie : (machine.next s (.other c)).cookie = s.cookie := rfl
    have hsessions : (machine.next s (.other c)).sessions =
        SessionStore.machine.next s.sessions c := rfl
    rw [accepts_iff (by rw [hcookie]; exact h.token), hcookie, hsessions, halive, httl,
      ← accepts_iff h.token]
    exact h.accepts now ((hstart.trans hstop).trans hnow)

/-- A request with the cookie is let in and keeps the session alive. -/
theorem UsedAt.request {login used clock now : Int} {s : SignedIn} (h : UsedAt login used clock s)
    (hclock : clock ≤ now) (hholds : s.Holds now) :
    UsedAt login now now (machine.next s (.request now)) := by
  have hused := h.login_le
  have hle := h.le_clock
  have hlast : now ≤ login + s.sessions.ttl := h.expires ▸ hholds
  have haccepts : s.Accepts now := (h.accepts now hclock).mpr (by omega)
  obtain ⟨session, hsession⟩ := Option.isSome_iff_exists.mp ((accepts_iff h.token now).mp haccepts)
  -- The session is seen now.
  have hentry : (s.sessions.validate now s.cookie.token).1.sessions[s.cookie.token]? =
      some { session with lastSeen := now } := by
    rw [SessionStore.sessions_validate, if_pos ⟨rfl, h.token⟩, hsession]
    rfl
  rw [next_request hholds]
  refine ⟨?_, h.token, by omega, Int.le_refl now, ?_⟩
  · rw [SessionStore.ttl_validate]
    exact h.expires
  · intro later _
    rw [accepts_iff (by exact h.token)]
    dsimp only
    rw [hentry, SessionStore.ttl_validate, SessionStore.alive_some]
    dsimp only
    split
    · exact iff_of_true rfl (by omega)
    · exact iff_of_false nofun (by omega)

/-- One event: only a request with the cookie is a use. -/
theorem UsedAt.next {login used clock : Int} {s : SignedIn} (h : UsedAt login used clock s)
    {e : BrowserEvent} (hstart : clock ≤ e.start) (hstop : e.start ≤ e.stop)
    (hother : ∀ c, e = .other c → c.token ≠ s.cookie.token) :
    UsedAt login used e.stop (machine.next s e) ∨
      ∃ now, e = .request now ∧ s.Holds now ∧ UsedAt login now now (machine.next s e) := by
  cases e with
  | other c => exact .inl (h.other (hother c rfl) hstart hstop)
  | request now =>
    by_cases hholds : s.Holds now
    · exact .inr ⟨now, rfl, hholds, h.request hstart hholds⟩
    · rw [next_request_of_not_holds hholds]
      exact .inl ⟨h.expires, h.token, h.login_le, h.le_clock.trans hstart,
        fun later hlater => h.accepts later (hstart.trans hlater)⟩

theorem cookie_next (s : SignedIn) (e : BrowserEvent) : (machine.next s e).cookie = s.cookie := by
  cases e with
  | request now => rfl
  | other c => rfl

/-- A session that was used early enough is over when its cookie is. -/
theorem UsedAt.agreeAt {login used clock : Int} {s : SignedIn} (h : UsedAt login used clock s)
    (hearly : used ≤ login + 1) {now : Int} (hnow : clock ≤ now) : s.AgreeAt now := by
  have hused := h.login_le
  constructor
  · intro hholds
    have hlast : now + 1 ≤ login + s.sessions.ttl := h.expires ▸ hholds
    exact (h.accepts now hnow).mpr (by omega)
  · intro haccepts
    have hlast := (h.accepts (now + 1) (by omega)).mp haccepts
    rw [Holds, h.expires]
    omega

/-- One that was used later outlives the cookie. -/
theorem UsedAt.not_agreeAt {login now : Int} {s : SignedIn} (h : UsedAt login now now s)
    (hholds : s.Holds now) (hlate : login + 1 < now) :
    ¬ s.AgreeAt (s.cookie.expires + 1) := by
  intro hagree
  have hlast : now ≤ s.cookie.expires := hholds
  have hexpires := h.expires
  have haccepts : s.Accepts (s.cookie.expires + 1 + 1) :=
    (h.accepts _ (by omega)).mpr (by omega)
  have hheld : s.cookie.expires + 1 ≤ s.cookie.expires := hagree.held haccepts
  omega

/-- Right after the login. -/
theorem usedAt_login {st : State L} {req : Request} {m : Moment} {setCookie : String}
    (hlogin : setCookieOf (Api.login req m st).2 = some setCookie)
    (httl : st.sessions.ttl = DiskMain.sessionTtl st) {cookie : SessionCookie}
    (hcookie : receiveCookie setCookie m.created = some cookie) :
    UsedAt m.created m.created m.created ⟨cookie, (Api.login req m st).1.sessions⟩ := by
  obtain ⟨rest, hrest, hsessions, hreceived⟩ := signedIn_login hlogin
  obtain rfl := Option.some.inj (hcookie.symm.trans hreceived)
  have hne := SessionStore.randomToken_ne_empty m.rawToken
  rw [hsessions]
  refine ⟨?_, hne, Int.le_refl _, Int.le_refl _, ?_⟩
  · dsimp only
    rw [SessionStore.ttl_createSession, hrest, httl]
  · intro now _
    rw [accepts_iff (by exact hne)]
    dsimp only
    rw [SessionStore.sessions_createSession, if_pos rfl, SessionStore.alive_some,
      SessionStore.ttl_createSession]
    dsimp only
    split
    · exact iff_of_true rfl (by omega)
    · exact iff_of_false nofun (by omega)

/-- Some use is known in every state of a run. -/
theorem usedAt_run {login : Int} {s : SignedIn} {es : List BrowserEvent}
    (h : UsedAt login login login s) (horder : InOrder BrowserEvent.start BrowserEvent.stop login es)
    (hothers : ∀ c, .other c ∈ es → c.token ≠ s.cookie.token) :
    (machine.run s es).cookie = s.cookie ∧ ∃ used,
      (used = login ∨ .request used ∈ es ∧ s.Holds used) ∧
        UsedAt login used (lastReading BrowserEvent.stop login es) (machine.run s es) := by
  refine Machine.invariant_run_clocked (M := machine) (I := fun clock s' => s'.cookie = s.cookie ∧
    ∃ used, (used = login ∨ .request used ∈ es ∧ s.Holds used) ∧ UsedAt login used clock s')
    ?_ ⟨rfl, login, .inl rfl, h⟩ horder
  intro e he clock s' hs hstart hstop
  obtain ⟨hcookie, used, hused, husedAt⟩ := hs
  refine ⟨(cookie_next s' e).trans hcookie, ?_⟩
  rcases husedAt.next hstart hstop (by rintro c rfl; rw [hcookie]; exact hothers c he) with
    hnext | ⟨now, rfl, hholds, hnext⟩
  · exact ⟨used, hused, hnext⟩
  · refine ⟨now, .inr ⟨he, ?_⟩, hnext⟩
    rw [Holds, ← hcookie]
    exact hholds

/-- After a late request of a run the cookie and the session come apart. -/
theorem not_agreeAt_after {login now : Int} {s : SignedIn} {pre : List BrowserEvent}
    (h : UsedAt login login login s)
    (horder : InOrder BrowserEvent.start BrowserEvent.stop login pre)
    (hothers : ∀ c, .other c ∈ pre → c.token ≠ s.cookie.token)
    (hlast : lastReading BrowserEvent.stop login pre ≤ now) (hheld : s.Holds now)
    (hlate : login + 1 < now) :
    ¬ (machine.run s (pre ++ [.request now])).AgreeAt (s.cookie.expires + 1) := by
  obtain ⟨hcookie, used, -, husedAt⟩ := usedAt_run h horder hothers
  have hholds : Holds (machine.run s pre) now := by
    rw [Holds, hcookie]
    exact hheld
  have hafter : (machine.next (machine.run s pre) (.request now)).cookie = s.cookie :=
    (cookie_next _ _).trans hcookie
  have hagree := (husedAt.request hlast hholds).not_agreeAt (by rw [Holds, hafter]; exact hheld) hlate
  rw [hafter] at hagree
  rw [run_append, run_cons, run_nil]
  exact hagree

/-- **The cookie and the session expire together** in a run of a browser that logged in
exactly when none of its requests is later than a second after the login. Here `now` is any
time after what has happened of the run. -/
theorem cookie_expires_with_session_iff {st : State L} {req : Request} {m : Moment}
    {setCookie : String} (hlogin : setCookieOf (Api.login req m st).2 = some setCookie)
    (httl : st.sessions.ttl = DiskMain.sessionTtl st) {cookie : SessionCookie}
    (hcookie : receiveCookie setCookie m.created = some cookie) {es : List BrowserEvent}
    (horder : InOrder BrowserEvent.start BrowserEvent.stop m.created es)
    (hothers : ∀ c, .other c ∈ es → c.token ≠ cookie.token) :
    (∀ pre, pre <+: es → ∀ now, lastReading BrowserEvent.stop m.created pre ≤ now →
      (machine.run ⟨cookie, (Api.login req m st).1.sessions⟩ pre).AgreeAt now) ↔
        ∀ now, .request now ∈ es → now ≤ cookie.expires → now ≤ m.created + 1 := by
  have hstart := usedAt_login hlogin httl hcookie
  constructor
  · intro hagree now hmem hheld
    obtain ⟨pre, post, rfl⟩ := List.append_of_mem hmem
    obtain ⟨hpre, hpost⟩ := (inOrder_append _ _ _).mp horder
    -- The state after the request, when the cookie would be gone.
    have hprefix : pre ++ [.request now] <+: pre ++ .request now :: post := ⟨post, by simp⟩
    have hclock : lastReading BrowserEvent.stop m.created (pre ++ [.request now]) ≤
        cookie.expires + 1 := by
      rw [lastReading_append]
      exact hheld.trans (by omega)
    have hlast : lastReading BrowserEvent.stop m.created pre ≤ now := hpost.1
    by_contra hlate
    exact not_agreeAt_after hstart hpre (fun c hc => hothers c (List.mem_append_left _ hc)) hlast
      hheld (by omega) (hagree _ hprefix _ hclock)
  · intro hearly pre hpre now hnow
    obtain ⟨post, rfl⟩ := hpre
    obtain ⟨-, used, hused, husedAt⟩ := usedAt_run hstart ((inOrder_append _ _ _).mp horder).1
      fun c hc => hothers c (List.mem_append_left _ hc)
    refine husedAt.agreeAt ?_ hnow
    rcases hused with rfl | ⟨hmem, hholds⟩
    · omega
    · exact hearly used (List.mem_append_left _ hmem) hholds

/-! ### Two runs -/

/-- The reference daemon after its password was set. -/
def passwordSet : State Reference.library :=
  Api.setPassword "password" (Reference.moment "").rawSalt Reference.initial

def loginRequest : Request := Reference.request (.obj [("password", .str "password")])

theorem sessionTtl_passwordSet : DiskMain.sessionTtl passwordSet = 3600 := by
  rw [DiskMain.sessionTtl, passwordSet, Api.setPassword,
    State.getValue_setValue_of_ne _ (by decide), State.getValue_setValue_of_ne _ (by decide)]
  decide

/-- The password logs in. -/
theorem login_passwordSet : ∃ setCookie,
    setCookieOf (Api.login loginRequest (Reference.moment "") passwordSet).2 = some setCookie := by
  have hallowed : (passwordSet.sessions.loginAllowed (Reference.moment "").now
      loginRequest.remoteAddress).2 = true := by decide
  have hhash : Api.webPasshash passwordSet = PasswordHash.hash Reference.digests "password"
      (PasswordHash.generateSalt (Reference.moment "").rawSalt) PasswordHash.kDefaultIterations :=
    Api.webPasshash_setPassword _ _ _
  have hverify : PasswordHash.verify Reference.library.digests (Api.bodyPassword loginRequest)
      (Api.webSalt passwordSet) (Api.webPasshash passwordSet) = true := by
    rw [hhash, passwordSet, Api.webSalt_setPassword]
    exact PasswordHash.verify_hash _ _ (by decide) (by decide) (by decide)
  have hset : ¬ (Api.webPasshash passwordSet).isEmpty = true := by
    rw [hhash, String.isEmpty_iff]
    exact PasswordHash.hash_ne_empty _ _ _ _
  rw [Api.login_of_allowed hallowed, if_neg hset, if_neg (by rw [hverify]; nofun)]
  exact ⟨_, rfl⟩

/-- A login and a request one second later. -/
theorem cookie_expires_with_session_soon : ∃ setCookie cookie,
    setCookieOf (Api.login loginRequest (Reference.moment "") passwordSet).2 = some setCookie ∧
      receiveCookie setCookie 1 = some cookie ∧
        ∀ pre, pre <+: [BrowserEvent.request 2] → ∀ now, lastReading BrowserEvent.stop 1 pre ≤ now →
          (machine.run ⟨cookie, (Api.login loginRequest (Reference.moment "") passwordSet).1.sessions⟩
            pre).AgreeAt now := by
  obtain ⟨setCookie, hlogin⟩ := login_passwordSet
  obtain ⟨_, -, -, hcookie⟩ := signedIn_login hlogin
  have horder : InOrder BrowserEvent.start BrowserEvent.stop (Reference.moment "").created
      [BrowserEvent.request 2] := ⟨by decide, by decide, trivial⟩
  refine ⟨setCookie, _, hlogin, hcookie,
    (cookie_expires_with_session_iff hlogin sessionTtl_passwordSet.symm hcookie horder ?_).mpr
    ?_⟩
  · intro c hc
    exact absurd (List.mem_singleton.mp hc) nofun
  · intro now hnow _
    obtain rfl := BrowserEvent.request.inj (List.mem_singleton.mp hnow)
    decide

/-- **A request half an hour after the login** keeps the session, and not the cookie. -/
theorem cookie_lost : ¬ ∀ (L : Library) (st : State L) (req : Request) (m : Moment)
    (setCookie : String) (cookie : SessionCookie) (es : List BrowserEvent),
    setCookieOf (Api.login req m st).2 = some setCookie →
      st.sessions.ttl = DiskMain.sessionTtl st →
        receiveCookie setCookie m.created = some cookie →
          InOrder BrowserEvent.start BrowserEvent.stop m.created es →
            (∀ c, .other c ∈ es → c.token ≠ cookie.token) →
              ∀ now, lastReading BrowserEvent.stop m.created es ≤ now →
                (machine.run ⟨cookie, (Api.login req m st).1.sessions⟩ es).AgreeAt now := by
  intro hall
  obtain ⟨setCookie, hlogin⟩ := login_passwordSet
  obtain ⟨_, -, -, hcookie⟩ := signedIn_login hlogin
  have hused := usedAt_login hlogin sessionTtl_passwordSet.symm hcookie
  have horder : InOrder BrowserEvent.start BrowserEvent.stop (Reference.moment "").created
      [BrowserEvent.request 1801] := ⟨by decide, by decide, trivial⟩
  have hothers : ∀ c, .other c ∈ [BrowserEvent.request 1801] →
      c.token ≠ SessionStore.randomToken (Reference.moment "").rawToken :=
    fun c hc => absurd (List.mem_singleton.mp hc) nofun
  have hexpires : (Reference.moment "").created + DiskMain.sessionTtl passwordSet = 3601 := by
    rw [sessionTtl_passwordSet]
    decide
  rw [hexpires] at hcookie hused
  have hheld : Holds ⟨⟨SessionStore.randomToken (Reference.moment "").rawToken, 3601⟩,
      (Api.login loginRequest (Reference.moment "") passwordSet).1.sessions⟩ 1801 := by
    show (1801 : Int) ≤ 3601
    decide
  have hlast : (Reference.moment "").created ≤ 1801 := by decide
  have hagree := hall _ _ _ _ _ _ _ hlogin sessionTtl_passwordSet.symm hcookie horder hothers 3602
    (by decide)
  refine (hused.request hlast hheld).not_agreeAt ?_ (by decide) hagree
  rw [Holds, cookie_next]
  exact hheld

end SignedIn

end TiBackup
