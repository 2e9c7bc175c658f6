import TiBackup.Model.Reference
import TiBackup.Model.Router
import TiBackup.Session.Expiry

/-!
# TiBackup.Auth.Checks

**What the two checks let through.** A guarded handler runs in the state `validated`:
the one it was called in, with the presented session refreshed, or erased if it had
expired. `withAuth` runs the handler only for a live session, `withCsrf` only for a
request that carries that session's CSRF token, and otherwise the answer is a refusal
and nothing but the session table is touched (`guarded_cases`).
-/

namespace TiBackup

open Lib

variable {L : Library}

/-- The request's cookie names this session, and it is live at the time. -/
def LiveSession (st : State L) (now : Int) (req : Request) (s : Session) : Prop :=
  sessionToken req ≠ "" ∧
    SessionStore.alive st.sessions.ttl now st.sessions.sessions[sessionToken req]? = some s

/-- The request carries the non-empty CSRF token of the live session it presents. -/
def CsrfVerified (st : State L) (now : Int) (req : Request) : Prop :=
  ∃ s, LiveSession st now req s ∧ s.csrf ≠ "" ∧ req.csrfToken = s.csrf

namespace State

/-- The state after the session of a request was validated. -/
def validated (st : State L) (now : Int) (req : Request) : State L :=
  { st with sessions := (st.sessions.validate now (sessionToken req)).1 }

/-- Everything but the sessions is the same. -/
def SameButSessions (st st' : State L) : Prop := st' = { st with sessions := st'.sessions }

theorem sameButSessions_with (st : State L) (s : SessionStore) :
    SameButSessions st { st with sessions := s } := rfl

theorem sameButSessions_validated (st : State L) (now : Int) (req : Request) :
    SameButSessions st (st.validated now req) := rfl

end State

/-- The request's session is the only entry that may have been refreshed; every other
one is as it was, or had expired and is gone. -/
def SessionsKept (st st' : State L) (now : Int) (req : Request) : Prop :=
  st'.sessions.ttl = st.sessions.ttl ∧ st'.sessions.logins = st.sessions.logins ∧
  ∀ t, st'.sessions.sessions[t]? = st.sessions.sessions[t]? ∨
    (st'.sessions.sessions[t]? = none ∧
      SessionStore.alive st.sessions.ttl now st.sessions.sessions[t]? = none) ∨
    ∃ s, t = sessionToken req ∧ LiveSession st now req s ∧
      st'.sessions.sessions[t]? = some { s with lastSeen := now }

theorem logins_validate (st : SessionStore) (now : Int) (token : String) :
    (st.validate now token).1.logins = st.logins := by
  unfold SessionStore.validate
  split
  · rfl
  · split
    · rfl
    · split <;> rfl

theorem sessionsKept_validated (st : State L) (now : Int) (req : Request) :
    SessionsKept st (st.validated now req) now req := by
  refine ⟨SessionStore.ttl_validate _ _ _, logins_validate _ _ _, ?_⟩
  intro t
  have hentry := SessionStore.sessions_validate st.sessions now (sessionToken req) t
  by_cases ht : t = sessionToken req ∧ sessionToken req ≠ ""
  · rw [if_pos ht] at hentry
    cases halive : SessionStore.alive st.sessions.ttl now st.sessions.sessions[t]? with
    | none => exact .inr (.inl ⟨by rw [State.validated, hentry, halive, Option.map_none], rfl⟩)
    | some s =>
      refine .inr (.inr ⟨s, ht.1, ⟨ht.2, ht.1 ▸ halive⟩, ?_⟩)
      rw [State.validated, hentry, halive, Option.map_some]
  · rw [if_neg ht] at hentry
    exact .inl hentry

/-- A session validates exactly when it is live. -/
theorem validate_iff_liveSession (st : State L) (now : Int) (req : Request) :
    (st.sessions.validate now (sessionToken req)).2 = true ↔ ∃ s, LiveSession st now req s := by
  rw [SessionStore.validate_snd]
  simp [LiveSession, Option.isSome_iff_exists]

theorem CsrfVerified.live {st : State L} {now : Int} {req : Request}
    (h : CsrfVerified st now req) : ∃ s, LiveSession st now req s :=
  h.imp fun _ hs => hs.1

/-- A second request of the same session is verified too. -/
theorem CsrfVerified.again {st : State L} {now : Int} {req req' : Request}
    (h : CsrfVerified st now req) (httl : 0 ≤ st.sessions.ttl) (hcookie : req'.cookie = req.cookie)
    (hcsrf : req'.csrfToken = req.csrfToken) : CsrfVerified (st.validated now req) now req' := by
  obtain ⟨s, ⟨hne, halive⟩, hs, hmatch⟩ := h
  have htoken : sessionToken req' = sessionToken req := by
    rw [sessionToken, sessionToken, cookieValue, cookieValue, hcookie]
  have hentry := SessionStore.sessions_validate st.sessions now (sessionToken req)
    (sessionToken req)
  rw [if_pos ⟨rfl, hne⟩, halive, Option.map_some] at hentry
  refine ⟨{ s with lastSeen := now }, ⟨by rwa [htoken], ?_⟩, hs, by rw [hcsrf, hmatch]⟩
  have hfresh : now - now ≤ st.sessions.ttl := by omega
  rw [htoken, State.validated, hentry, SessionStore.ttl_validate, SessionStore.alive_some,
    if_pos hfresh]

namespace Api

/-- The CSRF check after a successful validation looks at the presented session. -/
theorem csrfOk_validated {st : State L} {now : Int} {req : Request} {s : Session}
    (h : LiveSession st now req s) :
    csrfOk (st.validated now req) req = true ↔ s.csrf ≠ "" ∧ req.csrfToken = s.csrf := by
  have hentry := SessionStore.sessions_validate st.sessions now (sessionToken req)
    (sessionToken req)
  rw [if_pos ⟨rfl, h.1⟩, h.2, Option.map_some] at hentry
  have hcsrf : (st.validated now req).sessions.csrfFor (sessionToken req) = s.csrf := by
    rw [SessionStore.csrfFor, State.validated, hentry]
  rw [csrfOk, hcsrf]
  by_cases hempty : s.csrf = ""
  · simp [hempty]
  · simp [hempty]

theorem withAuth_of_live {st : State L} {req : Request} {m : Moment} {s : Session}
    (h : LiveSession st m.now req s) (d : Response → Reply) (k : Handler L) :
    withAuth d k req m st = k req m (st.validated m.now req) := by
  have hvalid := (validate_iff_liveSession st m.now req).mpr ⟨s, h⟩
  simp only [withAuth, hvalid, if_true]
  rfl

theorem withAuth_of_not_live {st : State L} {req : Request} {m : Moment}
    (h : ∀ s, ¬LiveSession st m.now req s) (d : Response → Reply) (k : Handler L) :
    withAuth d k req m st = (st.validated m.now req, d unauthorized) := by
  have hinvalid : (st.sessions.validate m.now (sessionToken req)).2 ≠ true := fun hv => by
    obtain ⟨s, hs⟩ := (validate_iff_liveSession st m.now req).mp hv
    exact h s hs
  simp only [withAuth, hinvalid]
  rfl

theorem withCsrf_of_verified {st : State L} {req : Request} {m : Moment}
    (h : CsrfVerified st m.now req) (d : Response → Reply) (k : Handler L) :
    withAuth d (withCsrf d k) req m st = k req m (st.validated m.now req) := by
  obtain ⟨s, hs, hcsrf⟩ := h
  rw [withAuth_of_live hs, withCsrf, if_pos ((csrfOk_validated hs).mpr hcsrf)]

/-- A request that is not verified is refused, one way or the other. -/
theorem withCsrf_of_not_verified {st : State L} {req : Request} {m : Moment}
    (h : ¬CsrfVerified st m.now req) (d : Response → Reply) (k : Handler L) :
    ∃ e, (e = unauthorized ∨ e = forbidden) ∧
      withAuth d (withCsrf d k) req m st = (st.validated m.now req, d e) := by
  by_cases hlive : ∃ s, LiveSession st m.now req s
  · obtain ⟨s, hs⟩ := hlive
    refine ⟨forbidden, .inr rfl, ?_⟩
    rw [withAuth_of_live hs, withCsrf, if_neg fun hok => ?_]
    exact h ⟨s, hs, (csrfOk_validated hs).mp hok⟩
  · exact ⟨unauthorized, .inl rfl, withAuth_of_not_live (not_exists.mp hlive) d _⟩

/-- A handler behind both checks runs, or the answer is a refusal. -/
theorem guarded_cases (st : State L) (req : Request) (m : Moment) (d : Response → Reply)
    (k : Handler L) :
    (CsrfVerified st m.now req ∧
        withAuth d (withCsrf d k) req m st = k req m (st.validated m.now req)) ∨
      ∃ e, (e = unauthorized ∨ e = forbidden) ∧
        withAuth d (withCsrf d k) req m st = (st.validated m.now req, d e) := by
  by_cases h : CsrfVerified st m.now req
  · exact .inl ⟨h, withCsrf_of_verified h d k⟩
  · exact .inr (withCsrf_of_not_verified h d k)

end Api

/-- A request of the reference session finds it live, -/
theorem Reference.liveSession {st : State L} (h : st.sessions = Reference.initial.sessions)
    {req : Request} (hcookie : req.cookie = "tibackup_sid=sid") :
    LiveSession st 1 req { csrf := "csrf", lastSeen := 0 } := by
  have htoken : sessionToken req = "sid" := by
    simp only [sessionToken, cookieValue, hcookie]
    decide
  constructor
  · rw [htoken]
    decide
  · rw [htoken, h]
    decide

/-- and passes both checks. -/
theorem Reference.csrfVerified {st : State L} (h : st.sessions = Reference.initial.sessions)
    (body : Json) : CsrfVerified st 1 (Reference.request body) :=
  ⟨_, Reference.liveSession h rfl, by decide, rfl⟩

end TiBackup
