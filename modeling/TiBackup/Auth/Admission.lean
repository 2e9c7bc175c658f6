import TiBackup.Session.Daemon

/-!
# TiBackup.Auth.Admission

**Whom the process lets in, and why.** Over any run of the whole process (requests of
any number of clients, workers that finish later, timers, disks, restarts) a session
cookie passes the check exactly when the history says so: somebody signed in and was
given this token, it was presented again within the TTL each time, and it was neither
signed out nor lost in a restart (`admitted_iff_held`).

So every request that changes anything goes back to somebody who knew the password
(`changes_authorized`). The work of a worker is done later, on behalf of the request
that left it.
-/

namespace TiBackup

open Lib Lib.Machine

variable {L : Library}

namespace Process

/-! ### Time -/

/-- The first and the last clock reading of an event, as far as sessions are concerned. -/
def span : Happening → Option (Int × Int)
  | .main (.request c) => some (c.moment.now, c.moment.created)
  | .handshake _ now => some (now, now)
  | _ => none

/-- The clock never goes back. -/
def Ordered (t₀ : Int) (es : List Happening) : Prop :=
  InOrder Prod.fst Prod.snd t₀ (es.filterMap span) ∧ ∀ c, .main (.request c) ∈ es →
    c.moment.now ≤ c.moment.later ∧ c.moment.later ≤ c.moment.created

/-- The last clock reading of a run. -/
def clock (t₀ : Int) (es : List Happening) : Int := lastReading Prod.snd t₀ (es.filterMap span)

theorem clock_append (t₀ : Int) (es fs : List Happening) :
    clock t₀ (es ++ fs) = clock (clock t₀ es) fs := by
  rw [clock, List.filterMap_append, lastReading_append]
  rfl

theorem clock_request (t : Int) (c : Call) :
    clock t [.main (.request c)] = c.moment.created := rfl

theorem ordered_append {t₀ : Int} {es fs : List Happening} :
    Ordered t₀ (es ++ fs) ↔ Ordered t₀ es ∧ Ordered (clock t₀ es) fs := by
  simp only [Ordered, List.filterMap_append, inOrder_append, clock, List.mem_append, or_imp,
    forall_and]
  constructor
  · rintro ⟨⟨hes, hfs⟩, ⟨h₁, h₂⟩, h₃, h₄⟩
    exact ⟨⟨hes, h₁, h₃⟩, hfs, h₂, h₄⟩
  · rintro ⟨⟨hes, h₁, h₃⟩, hfs, h₂, h₄⟩
    exact ⟨⟨hes, hfs⟩, ⟨h₁, h₂⟩, h₃, h₄⟩

theorem ordered_request {t : Int} {c : Call} : Ordered t [.main (.request c)] ↔
    t ≤ c.moment.now ∧ c.moment.now ≤ c.moment.later ∧ c.moment.later ≤ c.moment.created := by
  have hspan : [Happening.main (.request c)].filterMap span =
    [(c.moment.now, c.moment.created)] := rfl
  rw [Ordered, hspan, inOrder_cons]
  constructor
  · rintro ⟨⟨hstart, -, -⟩, hreadings⟩
    exact ⟨hstart, hreadings c List.mem_cons_self⟩
  · rintro ⟨hstart, hreadings⟩
    refine ⟨⟨hstart, hreadings.1.trans hreadings.2, trivial⟩, ?_⟩
    intro c' hc'
    obtain rfl : c' = c := by simpa using hc'
    exact hreadings

theorem ordered_handshake {t : Int} {cookie : Bytes} {now : Int}
    (h : Ordered t [.handshake cookie now]) : t ≤ now := h.1.1

theorem clock_le {t : Int} {e : Happening} (h : Ordered t [e]) : t ≤ clock t [e] :=
  le_lastReading h.1

/-! ### The history of a session -/

/-- The event ends the session with this token. -/
def Revokes (t : String) (p : Process L) : Happening → Prop
  | .main (.request c) => Api.SignsOut p.state c ∧ sessionToken c.req = t
  | .main (.restart _ _) => True
  | _ => False

/-- The event has nothing to do with this token. -/
def Leaves (t : String) (p : Process L) : Happening → Prop
  | .main (.request c) =>
    ¬(Api.SignsIn p.state c ∧ SessionStore.randomToken c.moment.rawToken = t) ∧
      ¬(c.route.validates = true ∧ sessionToken c.req = t)
  | .handshake cookie _ => wsCookieTokenFromHeader cookie ≠ t
  | .main (.restart _ _) => False
  | _ => True

/-- After these events of a process, whoever has the token `t` holds the session `s`:
a request signed somebody in with it, and since then it was presented in time, again
and again. An event that ends the session has no place in this history. -/
inductive Held (p : Process L) (t : String) : List Happening → Session → Prop
  | signedIn {es : List Happening} {c : Call} : Api.SignsIn ((machine L).run p es).state c →
      SessionStore.randomToken c.moment.rawToken = t →
      Held p t (es ++ [.main (.request c)]) (Api.newSession c.moment)
  | presented {es : List Happening} {c : Call} {s : Session} : Held p t es s →
      c.route.validates = true → sessionToken c.req = t →
      ¬Api.SignsOut ((machine L).run p es).state c →
      c.moment.now - s.lastSeen ≤ ((machine L).run p es).state.sessions.ttl →
      Held p t (es ++ [.main (.request c)]) { s with lastSeen := c.moment.now }
  | connected {es : List Happening} {cookie : Bytes} {now : Int} {s : Session} : Held p t es s →
      wsCookieTokenFromHeader cookie = t →
      now - s.lastSeen ≤ ((machine L).run p es).state.sessions.ttl →
      Held p t (es ++ [.handshake cookie now]) { s with lastSeen := now }
  | left {es : List Happening} {e : Happening} {s : Session} : Held p t es s →
      Leaves t ((machine L).run p es) e → Held p t (es ++ [e]) s

/-- A sign-in takes no session, and nothing but the sign-in gives one away. -/
theorem not_signsOut_of_signsIn {st : State L} {c : Call} (h : Api.SignsIn st c) :
    ¬Api.SignsOut st c := by
  intro hout
  rcases h.1 with hroute | hroute
  · rw [hout.1] at hroute
    cases hroute
  · rw [hout.1] at hroute
    cases hroute

theorem validates_of_signsIn {st : State L} {c : Call} (h : Api.SignsIn st c) :
    c.route.validates = false := by
  rcases h.1 with hroute | hroute
  · rw [hroute]
    rfl
  · rw [hroute]
    rfl

theorem validates_of_signsOut {st : State L} {c : Call} (h : Api.SignsOut st c) :
    c.route.validates = true := by
  rw [h.1]
  rfl

theorem leaves_of_quiet {e : Happening} (h : Quiet e) {t : String} {p : Process L} :
    Leaves t p e := by
  cases e with
  | main e =>
    cases e with
    | request c | restart tls nowMs => exact h.elim
    | _ => trivial
  | handshake cookie now => exact h.elim
  | done i => trivial

theorem not_revokes_of_quiet {e : Happening} (h : Quiet e) {t : String} {p : Process L} :
    ¬Revokes t p e := by
  cases e with
  | main e =>
    cases e with
    | request c | restart tls nowMs => exact h.elim
    | _ => exact id
  | handshake cookie now => exact h.elim
  | done i => exact id

/-- The session has the tokens that somebody was given when he signed in, and nothing
has ended it since. -/
theorem Held.origin {p : Process L} {t : String} {es : List Happening} {s : Session}
    (h : Held p t es s) : ∃ pre c post, es = pre ++ .main (.request c) :: post ∧
      Api.SignsIn ((machine L).run p pre).state c ∧
      SessionStore.randomToken c.moment.rawToken = t ∧
      s.csrf = SessionStore.randomToken c.moment.rawCsrf ∧
      (machine L).Along (fun q e => ¬Revokes t q e)
        ((machine L).run p (pre ++ [.main (.request c)])) post := by
  induction h with
  | @signedIn es c hin ht => exact ⟨es, c, [], rfl, hin, ht, rfl, trivial⟩
  | @presented es c s _ _ _ hstay _ ih =>
    obtain ⟨pre, c₀, post, rfl, hin, ht, hcsrf, hpost⟩ := ih
    refine ⟨pre, c₀, post ++ [.main (.request c)], by simp, hin, ht, hcsrf, ?_⟩
    rw [along_append, along_cons, ← run_append, List.append_assoc]
    exact ⟨hpost, fun hrevokes => hstay hrevokes.1, trivial⟩
  | @connected es cookie now s _ _ _ ih =>
    obtain ⟨pre, c₀, post, rfl, hin, ht, hcsrf, hpost⟩ := ih
    refine ⟨pre, c₀, post ++ [.handshake cookie now], by simp, hin, ht, hcsrf, ?_⟩
    rw [along_append, along_cons, ← run_append, List.append_assoc]
    exact ⟨hpost, id, trivial⟩
  | @left es e s _ hleaves ih =>
    obtain ⟨pre, c₀, post, rfl, hin, ht, hcsrf, hpost⟩ := ih
    refine ⟨pre, c₀, post ++ [e], by simp, hin, ht, hcsrf, ?_⟩
    rw [along_append, along_cons, ← run_append, List.append_assoc]
    refine ⟨hpost, fun hrevokes => ?_, trivial⟩
    rcases e.cases with hquiet | ⟨c, rfl⟩ | ⟨cookie, now, rfl⟩ | ⟨tls, nowMs, rfl⟩
    · exact not_revokes_of_quiet hquiet hrevokes
    · exact hleaves.2 ⟨validates_of_signsOut hrevokes.1, hrevokes.2⟩
    · exact hrevokes
    · exact hleaves

/-- No session has the empty token. -/
theorem Held.token_ne_empty {p : Process L} {t : String} {es : List Happening} {s : Session}
    (h : Held p t es s) : t ≠ "" := by
  obtain ⟨pre, c, post, -, -, ht, -, -⟩ := h.origin
  exact ht ▸ SessionStore.randomToken_ne_empty c.moment.rawToken

theorem Held.csrf_ne_empty {p : Process L} {t : String} {es : List Happening} {s : Session}
    (h : Held p t es s) : s.csrf ≠ "" := by
  obtain ⟨pre, c, post, -, -, -, hcsrf, -⟩ := h.origin
  exact hcsrf ▸ SessionStore.randomToken_ne_empty c.moment.rawCsrf

/-! ### The table is the history -/

/-- The session stored under a token. -/
def entry (p : Process L) (t : String) : Option Session := p.state.sessions.sessions[t]?

/-- A request that has nothing to do with a token leaves its session alone, or purges
it because it has expired. -/
theorem entry_request_of_leaves {p : Process L} {t : String} {c : Call}
    (h : Leaves t p (.main (.request c))) :
    entry ((machine L).next p (.main (.request c))) t = entry p t ∨
      entry ((machine L).next p (.main (.request c))) t =
        SessionStore.alive p.state.sessions.ttl c.moment.later (entry p t) := by
  obtain ⟨hin, hpresents⟩ := h
  have hstep := (Api.tableStep_serve c p.state).1
  cases hstep with
  | signedIn hsigns hentry =>
    have ht : t ≠ SessionStore.randomToken c.moment.rawToken := fun ht => hin ⟨hsigns, ht.symm⟩
    exact .inr ((hentry t).trans (if_neg ht))
  | signedOut hsigns hentry =>
    have ht : t ≠ sessionToken c.req := fun ht =>
      hpresents ⟨validates_of_signsOut hsigns, ht.symm⟩
    exact .inl ((hentry t).trans (if_neg ht))
  | validated hroute _ hentry =>
    have ht : ¬(t = sessionToken c.req ∧ sessionToken c.req ≠ "") := fun ht =>
      hpresents ⟨hroute, ht.1.symm⟩
    exact .inl ((hentry t).trans (if_neg ht))
  | left _ _ hentry => exact .inl (congrArg (fun m : StringMap Session => m[t]?) hentry)

theorem entry_request_of_signsIn {p : Process L} {c : Call} (h : Api.SignsIn p.state c) :
    entry ((machine L).next p (.main (.request c))) (SessionStore.randomToken c.moment.rawToken) =
      some (Api.newSession c.moment) := by
  have hstep := (Api.tableStep_serve c p.state).1
  cases hstep with
  | signedIn _ hentry => exact (hentry _).trans (if_pos rfl)
  | signedOut hsigns _ => exact absurd hsigns (not_signsOut_of_signsIn h)
  | validated hroute _ _ =>
    rw [validates_of_signsIn h] at hroute
    cases hroute
  | left _ hstay _ => exact absurd h hstay

theorem entry_request_of_signsOut {p : Process L} {c : Call} (h : Api.SignsOut p.state c) :
    entry ((machine L).next p (.main (.request c))) (sessionToken c.req) = none := by
  have hstep := (Api.tableStep_serve c p.state).1
  cases hstep with
  | signedIn hsigns _ => exact absurd h (not_signsOut_of_signsIn hsigns)
  | signedOut _ hentry => exact (hentry _).trans (if_pos rfl)
  | validated _ hstay _ => exact absurd h hstay
  | left hno _ _ =>
    rw [validates_of_signsOut h] at hno
    cases hno

theorem entry_request_of_presented {p : Process L} {c : Call} (hroute : c.route.validates = true)
    (hstay : ¬Api.SignsOut p.state c) (ht : sessionToken c.req ≠ "") :
    entry ((machine L).next p (.main (.request c))) (sessionToken c.req) =
      (SessionStore.alive p.state.sessions.ttl c.moment.now (entry p (sessionToken c.req))).map
        fun s => { s with lastSeen := c.moment.now } := by
  have hstep := (Api.tableStep_serve c p.state).1
  cases hstep with
  | signedIn hsigns _ =>
    rw [validates_of_signsIn hsigns] at hroute
    cases hroute
  | signedOut hsigns _ => exact absurd hsigns hstay
  | validated _ _ hentry => exact (hentry _).trans (if_pos ⟨rfl, ht⟩)
  | left hno _ _ =>
    rw [hno] at hroute
    cases hroute

theorem entry_handshake (p : Process L) (cookie : Bytes) (now : Int) (t : String) :
    entry ((machine L).next p (.handshake cookie now)) t =
      if t = wsCookieTokenFromHeader cookie ∧ wsCookieTokenFromHeader cookie ≠ "" then
        (SessionStore.alive p.state.sessions.ttl now (entry p t)).map
          fun s => { s with lastSeen := now }
      else entry p t := by
  rw [entry, state_handshake]
  exact SessionStore.sessions_validate _ _ _ t

theorem alive_eq_some {ttl now : Int} {e : Option Session} {s : Session} :
    SessionStore.alive ttl now e = some s ↔ e = some s ∧ now - s.lastSeen ≤ ttl := by
  simp [SessionStore.alive, Option.filter_eq_some_iff]

theorem entry_of_quiet {e : Happening} (h : Quiet e) (p : Process L) (t : String) :
    entry ((machine L).next p e) t = entry p t := by
  rw [entry, entry, sessions_next_of_quiet h]

/-- The TTL of a process is that of its start. -/
theorem ttl_next {e : Happening} (h : ∀ tls nowMs, e ≠ .main (.restart tls nowMs)) (p : Process L) :
    ((machine L).next p e).state.sessions.ttl = p.state.sessions.ttl := by
  rcases e.cases with hquiet | ⟨c, rfl⟩ | ⟨cookie, now, rfl⟩ | ⟨tls, nowMs, rfl⟩
  · rw [sessions_next_of_quiet hquiet]
  · exact (Api.tableStep_serve c p.state).2
  · exact SessionStore.ttl_validate _ _ _
  · exact absurd rfl (h tls nowMs)

/-- A session that the history knows and that has not expired is in the table. -/
theorem Held.entry_eq {p : Process L} {t : String} {t₀ : Int} {es : List Happening} {s : Session}
    (h : Held p t es s) (horder : Ordered t₀ es)
    (hlive : clock t₀ es - s.lastSeen ≤ ((machine L).run p es).state.sessions.ttl) :
    entry ((machine L).run p es) t = some s := by
  have hne := h.token_ne_empty
  induction h with
  | @signedIn es c hin ht =>
    subst ht
    rw [run_append, run_cons, run_nil]
    exact entry_request_of_signsIn hin
  | @presented es c s hheld hroute ht hstay hgap ih =>
    obtain ⟨hes, hc⟩ := ordered_append.mp horder
    have hclock := (ordered_request.mp hc).1
    subst ht
    rw [run_append, run_cons, run_nil, entry_request_of_presented hroute hstay hne,
      ih hes (by omega), SessionStore.alive_some, if_pos hgap]
    rfl
  | @connected es cookie now s hheld ht hgap ih =>
    obtain ⟨hes, hc⟩ := ordered_append.mp horder
    have hclock := ordered_handshake hc
    subst ht
    rw [run_append, run_cons, run_nil, entry_handshake, if_pos ⟨rfl, hne⟩, ih hes (by omega),
      SessionStore.alive_some, if_pos hgap]
    rfl
  | @left es e s hheld hleaves ih =>
    obtain ⟨hes, he⟩ := ordered_append.mp horder
    have hle := clock_le he
    have hrestart : ∀ tls nowMs, e ≠ .main (.restart tls nowMs) := by
      rintro tls nowMs rfl
      exact hleaves
    rw [run_append, run_cons, run_nil] at hlive ⊢
    rw [ttl_next hrestart, clock_append] at hlive
    have hentry := ih hes (by omega)
    rcases e.cases with hquiet | ⟨c, rfl⟩ | ⟨cookie, now, rfl⟩ | ⟨tls, nowMs, rfl⟩
    · rw [entry_of_quiet hquiet, hentry]
    · have hlater := (ordered_request.mp he).2.2
      rw [clock_request] at hlive
      rcases entry_request_of_leaves hleaves with hsame | hpurged
      · rw [hsame, hentry]
      · rw [hpurged, hentry, SessionStore.alive_some, if_pos (by omega)]
    · rw [entry_handshake, if_neg fun h => hleaves h.1.symm, hentry]
    · exact hleaves.elim

/-- A session that is in the table is one the history knows. -/
theorem held_of_entry {p : Process L} (hfresh : p.state.sessions.sessions = ∅) {t : String}
    (hne : t ≠ "") {es : List Happening} {s : Session}
    (h : entry ((machine L).run p es) t = some s) : Held p t es s := by
  induction es using List.reverseRecOn generalizing s with
  | nil =>
    rw [run_nil, entry, hfresh] at h
    simp at h
  | append_singleton es e ih =>
    rw [run_append, run_cons, run_nil] at h
    generalize hq : (machine L).run p es = q at h ih
    rcases e.cases with hquiet | ⟨c, rfl⟩ | ⟨cookie, now, rfl⟩ | ⟨tls, nowMs, rfl⟩
    · rw [entry_of_quiet hquiet] at h
      exact .left (ih h) (leaves_of_quiet hquiet)
    · by_cases hin : Api.SignsIn q.state c ∧ SessionStore.randomToken c.moment.rawToken = t
      · obtain ⟨hsigns, rfl⟩ := hin
        rw [entry_request_of_signsIn hsigns] at h
        obtain rfl := Option.some.inj h
        exact .signedIn (hq ▸ hsigns) rfl
      by_cases hpresents : c.route.validates = true ∧ sessionToken c.req = t
      · obtain ⟨hroute, rfl⟩ := hpresents
        have hstay : ¬Api.SignsOut q.state c := by
          intro hsigns
          rw [entry_request_of_signsOut hsigns] at h
          cases h
        rw [entry_request_of_presented hroute hstay hne] at h
        obtain ⟨s', hs', rfl⟩ := Option.map_eq_some_iff.mp h
        obtain ⟨hentry, hgap⟩ := alive_eq_some.mp hs'
        exact .presented (ih hentry) hroute rfl (hq ▸ hstay) (hq ▸ hgap)
      · refine .left (ih ?_) (hq ▸ ⟨hin, hpresents⟩)
        rcases entry_request_of_leaves ⟨hin, hpresents⟩ with hsame | hpurged
        · rw [← hsame, h]
        · rw [hpurged] at h
          exact (alive_eq_some.mp h).1
    · rw [entry_handshake] at h
      split at h
      · next ht =>
        obtain ⟨s', hs', rfl⟩ := Option.map_eq_some_iff.mp h
        obtain ⟨hentry, hgap⟩ := alive_eq_some.mp hs'
        exact .connected (ih hentry) ht.1.symm (hq ▸ hgap)
      · next ht => exact .left (ih h) fun htoken => ht ⟨htoken.symm, htoken ▸ hne⟩
    · rw [entry, sessions_next_restart] at h
      simp at h

/-- **The history decides.** The session check accepts a request exactly when the history
has a session for its cookie that was used within the TTL, and the CSRF check exactly when
the request brings along what was given out at that sign-in. -/
theorem admitted_iff_held {p : Process L} (hfresh : p.state.sessions.sessions = ∅) {t₀ now : Int}
    {es : List Happening} (horder : Ordered t₀ es) (hnow : clock t₀ es ≤ now) (req : Request) :
    ((((machine L).run p es).state.sessions.validate now (sessionToken req)).2 = true ↔
      ∃ s, Held p (sessionToken req) es s ∧
        now - s.lastSeen ≤ ((machine L).run p es).state.sessions.ttl) ∧
    (CsrfVerified ((machine L).run p es).state now req ↔
      ∃ s, Held p (sessionToken req) es s ∧
        now - s.lastSeen ≤ ((machine L).run p es).state.sessions.ttl ∧ req.csrfToken = s.csrf) := by
  have hlive : ∀ s, LiveSession ((machine L).run p es).state now req s ↔
      Held p (sessionToken req) es s ∧
        now - s.lastSeen ≤ ((machine L).run p es).state.sessions.ttl := by
    intro s
    constructor
    · rintro ⟨hne, halive⟩
      obtain ⟨hentry, hgap⟩ := alive_eq_some.mp halive
      exact ⟨held_of_entry hfresh hne hentry, hgap⟩
    · rintro ⟨hheld, hgap⟩
      exact ⟨hheld.token_ne_empty,
        alive_eq_some.mpr ⟨hheld.entry_eq horder (by omega), hgap⟩⟩
  constructor
  · rw [validate_iff_liveSession]
    exact exists_congr hlive
  · constructor
    · rintro ⟨s, hs, -, hcsrf⟩
      exact ⟨s, ((hlive s).mp hs).1, ((hlive s).mp hs).2, hcsrf⟩
    · rintro ⟨s, hheld, hgap, hcsrf⟩
      exact ⟨s, (hlive s).mpr ⟨hheld, hgap⟩, hheld.csrf_ne_empty, hcsrf⟩

/-- One second after the setup of a new process, its own session is let in. -/
theorem admitted_after_setup :
    Held reference (SessionStore.randomToken Reference.rawToken) [.main (.request setupCall)]
        (Api.newSession setupCall.moment) ∧
      ∀ req, sessionToken req = SessionStore.randomToken Reference.rawToken →
        (((machine _).run reference [.main (.request setupCall)]).state.sessions.validate 2
          (sessionToken req)).2 = true := by
  have hheld : Held reference (SessionStore.randomToken Reference.rawToken)
      ([] ++ [.main (.request setupCall)]) (Api.newSession setupCall.moment) :=
    .signedIn ⟨.inl rfl, rfl⟩ rfl
  refine ⟨hheld, ?_⟩
  intro req hreq
  have horder : Ordered 0 [.main (.request setupCall)] := ordered_request.mpr (by decide)
  have hnow : clock 0 [.main (.request setupCall)] ≤ 2 := by decide
  exact (admitted_iff_held rfl horder hnow req).1.mpr
    ⟨Api.newSession setupCall.moment, hreq ▸ hheld, by decide⟩

/-! ### Whoever changes something knew the password -/

/-- The request shows that its sender may sign in: there is no password yet, or it is the
one whose record is stored. -/
def Credential (st : State L) (c : Call) : Prop :=
  c.route = .setup ∧ Api.webPasshash st = "" ∨
    c.route = .login ∧ PasswordHash.verify L.digests (Api.bodyPassword c.req) (Api.webSalt st)
      (Api.webPasshash st) = true

theorem credential_of_signsIn {st : State L} {c : Call} (h : Api.SignsIn st c) :
    Credential st c := by
  obtain ⟨r, req, m⟩ := c
  obtain ⟨hroute | hroute, hanswered⟩ := h
  · obtain rfl : r = .setup := hroute
    rcases Api.setup_cases req m st with ⟨-, hno⟩ | ⟨hempty, -, -⟩
    · exact absurd hanswered hno
    · exact .inl ⟨rfl, hempty⟩
  · obtain rfl : r = .login := hroute
    rcases Api.login_cases req m st with ⟨-, -, hno⟩ | ⟨⟨-, hverify⟩, -, -⟩
    · exact absurd hanswered hno
    · exact .inr ⟨rfl, hverify⟩

/-- Somebody who knew the password signed in and was given the tokens of this request, and
nothing has ended that session since. -/
def Authorized (p : Process L) (es : List Happening) (c : Call) : Prop :=
  ∃ pre c₀ post, es = pre ++ .main (.request c₀) :: post ∧
    Credential ((machine L).run p pre).state c₀ ∧ Api.SignsIn ((machine L).run p pre).state c₀ ∧
    sessionToken c.req = SessionStore.randomToken c₀.moment.rawToken ∧
    c.req.csrfToken = SessionStore.randomToken c₀.moment.rawCsrf ∧
    (machine L).Along (fun q e => ¬Revokes (sessionToken c.req) q e)
      ((machine L).run p (pre ++ [.main (.request c₀)])) post

/-- A verified request is authorized. -/
theorem authorized_of_verified {p : Process L} (hfresh : p.state.sessions.sessions = ∅) {t₀ : Int}
    {es : List Happening} {c : Call} (horder : Ordered t₀ es)
    (hnow : clock t₀ es ≤ c.moment.now)
    (h : CsrfVerified ((machine L).run p es).state c.moment.now c.req) : Authorized p es c := by
  obtain ⟨s, ⟨hne, halive⟩, -, hcsrf⟩ := h
  obtain ⟨pre, c₀, post, rfl, hin, ht, hgiven, hpost⟩ :=
    (held_of_entry hfresh hne (alive_eq_some.mp halive).1).origin
  exact ⟨pre, c₀, post, rfl, credential_of_signsIn hin, hin, ht.symm, hcsrf.trans hgiven, hpost⟩

end Process

namespace Api

/-- A request that changes something, or leaves work that may, is verified; otherwise it
is a setup or a login that shows a credential. -/
theorem changes_verified (c : Call) (st : State L) :
    (State.SameButSessions st (serve c st).1 ∨ Process.Credential st c ∨
      CsrfVerified st c.moment.now c.req) ∧
    (Benign L (serve c st).2 ∨ CsrfVerified st c.moment.now c.req) := by
  obtain ⟨r, req, m⟩ := c
  cases hchanges : r.changes with
  | false =>
    obtain ⟨hsame, hbenign⟩ := reads_changes_nothing hchanges st req m
    exact ⟨.inl hsame, .inl hbenign⟩
  | true =>
    cases hpublic : r.isPublic with
    | false =>
      by_cases hverified : CsrfVerified st m.now req
      · exact ⟨.inr (.inr hverified), .inr hverified⟩
      · obtain ⟨hst, e, -, hanswer⟩ := refused_of_not_verified hpublic hchanges hverified
        refine ⟨.inl ?_, .inl fun later => congrArg Prod.fst (hanswer later)⟩
        exact hst ▸ State.sameButSessions_validated st m.now req
    | true =>
      cases r with
      | setup =>
        refine ⟨?_, .inl (benign_setup st req m)⟩
        exact (setup_changes st req m).imp_right fun h => .inl (.inl ⟨rfl, h.1⟩)
      | login =>
        refine ⟨?_, .inl (benign_login st req m)⟩
        exact (login_changes st req m).imp_right fun h => .inl (.inr ⟨rfl, h.1⟩)
      | health | authStatus => cases hchanges
      | _ => cases hpublic

end Api

namespace Process

/-- What is on the thread pool was left there by a request. -/
theorem pool_origin {p : Process L} (hpool : p.pool = []) {es : List Happening} {t : Task}
    (h : t ∈ ((machine L).run p es).pool) :
    ∃ pre post, es = pre ++ .main (.request t.call) :: post ∧
      (Api.serve t.call ((machine L).run p pre).state).2 = .later t.work := by
  induction es using List.reverseRecOn with
  | nil =>
    rw [run_nil, hpool] at h
    cases h
  | append_singleton es e ih =>
    have hkeep : t ∈ ((machine L).run p es).pool → ∃ pre post,
        es ++ [e] = pre ++ .main (.request t.call) :: post ∧
          (Api.serve t.call ((machine L).run p pre).state).2 = .later t.work := by
      intro hmem
      obtain ⟨pre, post, rfl, hwork⟩ := ih hmem
      exact ⟨pre, post ++ [e], by simp, hwork⟩
    rw [run_append, run_cons, run_nil] at h
    cases e with
    | main e =>
      cases e with
      | request c =>
        rw [pool_request, List.mem_append] at h
        rcases h with hold | hnew
        · exact hkeep hold
        · cases hreply : (Api.serve c ((machine L).run p es).state).2 with
          | now r =>
            rw [hreply] at hnew
            cases hnew
          | later w =>
            rw [hreply] at hnew
            obtain rfl := List.mem_singleton.mp hnew
            exact ⟨es, [], rfl, hreply⟩
      | restart tls nowMs => cases h
      | _ => exact hkeep h
    | handshake cookie now => exact hkeep h
    | done i =>
      cases htask : ((machine L).run p es).pool[i]? with
      | none =>
        rw [next_done_of_none _ htask] at h
        exact hkeep h
      | some t' =>
        rw [next_done _ htask] at h
        exact hkeep (List.mem_of_mem_eraseIdx h)

/-- **Nobody changes anything without the password.** In every run of a process that
nobody was signed in to, a request leaves everything but the sessions alone, or it shows
a credential, or it brings along both tokens that were given to somebody who signed in with
one and whose session nothing has ended; and a worker changes something only on behalf of a
request that did, the one that left it the task. -/
theorem changes_authorized {p : Process L} (hfresh : p.state.sessions.sessions = ∅)
    (hpool : p.pool = []) {t₀ : Int} {es : List Happening} {e : Happening}
    (horder : Ordered t₀ (es ++ [e])) :
    (∀ c, e = .main (.request c) →
      State.SameButSessions ((machine L).run p es).state ((machine L).run p (es ++ [e])).state ∨
        Credential ((machine L).run p es).state c ∨ Authorized p es c) ∧
    (∀ i, e = .done i →
      ((machine L).run p (es ++ [e])).state = ((machine L).run p es).state ∨
        ∃ pre t post, ((machine L).run p es).pool[i]? = some t ∧
          es = pre ++ .main (.request t.call) :: post ∧ Authorized p pre t.call) := by
  obtain ⟨hes, he⟩ := ordered_append.mp horder
  constructor
  · rintro c rfl
    rw [run_append, run_cons, run_nil, state_request]
    refine (Api.changes_verified c ((machine L).run p es).state).1.imp_right fun h => h.imp_right ?_
    exact authorized_of_verified hfresh hes (ordered_request.mp he).1
  · rintro i rfl
    rw [run_append, run_cons, run_nil]
    cases htask : ((machine L).run p es).pool[i]? with
    | none => exact .inl (by rw [next_done_of_none _ htask])
    | some t =>
      obtain ⟨pre, post, rfl, hwork⟩ := pool_origin hpool (List.mem_of_getElem? htask)
      rcases (Api.changes_verified t.call ((machine L).run p pre).state).2 with hbenign | hverified
      · rw [hwork] at hbenign
        refine .inl ?_
        rw [next_done _ htask]
        exact hbenign _
      · -- The request was verified when it was served.
        obtain ⟨hpre, hrest⟩ := ordered_append.mp hes
        rw [← List.singleton_append, ordered_append] at hrest
        exact .inr ⟨pre, t, post, rfl, rfl,
          authorized_of_verified hfresh hpre (ordered_request.mp hrest.1).1 hverified⟩

/-- A job is saved by the one who has just set the password. -/
def photosCall : Call where
  route := .postJob
  req :=
    { cookie := "tibackup_sid=" ++ SessionStore.randomToken Reference.rawToken
      csrfToken := SessionStore.randomToken Reference.rawToken
      body := some (.obj [("name", .str "photos")]) }
  moment := { Reference.moment "" with now := 2, later := 2, created := 2 }

theorem setup_authorized :
    Ordered 0 ([.main (.request setupCall)] ++ [.main (.request photosCall)]) ∧
      Authorized reference [.main (.request setupCall)] photosCall := by
  have horder : Ordered 0 ([.main (.request setupCall)] ++ [.main (.request photosCall)]) :=
    ordered_append.mpr ⟨ordered_request.mpr (by decide), ordered_request.mpr (by decide)⟩
  refine ⟨horder, ?_⟩
  rcases (changes_authorized (p := reference) rfl rfl horder).1 photosCall rfl with
    hsame | hcredential | h
  · -- There is a job now.
    have hjobs := hsame.part .jobs
    have hbefore : (Api.allJobs ((machine _).run reference
        [.main (.request setupCall)]).state).length = 0 := by
      decide +kernel
    have hafter : (Api.allJobs ((machine _).run reference
        ([.main (.request setupCall)] ++ [.main (.request photosCall)])).state).length = 1 := by
      decide +kernel
    simp only [Api.allJobs] at hbefore hafter
    rw [hjobs, hbefore] at hafter
    cases hafter
  · rcases hcredential with ⟨hroute, -⟩ | ⟨hroute, -⟩
    · cases hroute
    · cases hroute
  · exact h

end Process

end TiBackup
