import TiBackup.Lib.Encoding
import TiBackup.Lib.StringMap

/-!
# TiBackup.Model.SessionStore

`webserver/auth/sessionstore.cpp`: the in-memory table of web sessions and the
login gate that throttles password guessing.

Every function takes the clock readings it makes (seconds since the epoch) and the
random bytes it draws as arguments. Each one holds the store's mutex from start to
end, so a call is one atomic step.
-/

namespace TiBackup

open Lib

/-- Consecutive failures before a lockout. -/
def kMaxFails : Nat := 5

/-- Lockout duration in seconds. -/
def kLockSeconds : Int := 300

/-- What `randomToken` draws: 32 random bytes. -/
abbrev RandomBytes := { raw : Bytes // raw.length = 32 }

/-- A session: its CSRF token and when it was last used. -/
structure Session where
  csrf : String
  lastSeen : Int
  deriving Repr, DecidableEq

/-- The failures of one client; `lockedUntil = 0` when it was never locked. -/
structure LoginGate where
  fails : Nat := 0
  lockedUntil : Int := 0
  deriving Repr, DecidableEq

structure SessionStore where
  sessions : StringMap Session := ∅
  logins : StringMap LoginGate := ∅
  ttl : Int := 3600

namespace SessionStore

/-- `randomToken`: the bytes in URL-safe base64 without padding. -/
def randomToken (raw : RandomBytes) : String := toBase64Url raw.1

theorem randomToken_ne_empty (raw : RandomBytes) : randomToken raw ≠ "" := by
  refine toBase64Url_ne_empty ?_
  intro h
  have hlen := raw.2
  rw [h] at hlen
  cases hlen

/-- Has the session been idle for longer than the store allows? -/
def expired (st : SessionStore) (now : Int) (s : Session) : Bool := now - s.lastSeen > st.ttl

/-- `purgeExpired`. -/
def purgeExpired (st : SessionStore) (now : Int) : SessionStore :=
  { st with sessions := st.sessions.filter fun _ s => !st.expired now s }

/-- `createSession`: purge at the first reading, insert a fresh session seen at the
second. Returns the token and the CSRF token. -/
def createSession (st : SessionStore) (rawToken rawCsrf : RandomBytes) (purgeNow now : Int) :
    SessionStore × String × String :=
  let st := st.purgeExpired purgeNow
  let token := randomToken rawToken
  let s : Session := { csrf := randomToken rawCsrf, lastSeen := now }
  ({ st with sessions := st.sessions.insert token s }, token, s.csrf)

/-- `validate`: is there a live session? Erases an expired one, refreshes a live one. -/
def validate (st : SessionStore) (now : Int) (token : String) : SessionStore × Bool :=
  if token.isEmpty then (st, false)
  else
    match st.sessions[token]? with
    | none => (st, false)
    | some s =>
      if st.expired now s then ({ st with sessions := st.sessions.erase token }, false)
      else
        -- sliding expiry
        ({ st with sessions := st.sessions.insert token { s with lastSeen := now } }, true)

/-- `csrfFor`: the CSRF token of a session, empty when the table has none. -/
def csrfFor (st : SessionStore) (token : String) : String :=
  match st.sessions[token]? with
  | none => ""
  | some s => s.csrf

/-- `drop`. -/
def drop (st : SessionStore) (token : String) : SessionStore :=
  { st with sessions := st.sessions.erase token }

/-- `loginAllowed`: may this client try a password now? Forgets a lock that is over. -/
def loginAllowed (st : SessionStore) (now : Int) (clientId : String) : SessionStore × Bool :=
  match st.logins[clientId]? with
  | none => (st, true)
  | some g =>
    -- The lock is not extended by trying.
    if g.lockedUntil > now then (st, false)
    -- A lock that is over: the client starts from zero.
    else if g.lockedUntil ≠ 0 then ({ st with logins := st.logins.erase clientId }, true)
    else (st, true)

/-- `loginFailed`: count a failure; the fifth one locks and restarts the count. -/
def loginFailed (st : SessionStore) (now : Int) (clientId : String) : SessionStore :=
  let g := st.logins[clientId]?.getD {}
  if g.lockedUntil > now then { st with logins := st.logins.insert clientId g }
  else
    let g := { g with fails := g.fails + 1 }
    let g := if g.fails ≥ kMaxFails then { fails := 0, lockedUntil := now + kLockSeconds } else g
    { st with logins := st.logins.insert clientId g }

/-- `loginSucceeded`. -/
def loginSucceeded (st : SessionStore) (clientId : String) : SessionStore :=
  { st with logins := st.logins.erase clientId }

end SessionStore

end TiBackup
