import TiBackup.Model.Daemon

/-!
# TiBackup.Model.Api.Auth

`ApiRouter::registerAuthRoutes`: the four public routes and the logout, and
`setWebPassword` of `main.cpp`, which sets the same record from the command line.

The admin credential is the pair `web/salt`, `web/passhash`. First-run setup writes
it while `web/passhash` is empty, a login may rewrite it in the current format, and
`--set-web-password` writes it at any time.
-/

namespace TiBackup

open Lib

variable {L : Library}

namespace Api

/-- `buildSessionCookie`: the lifetime is the session TTL of the configuration. -/
def buildSessionCookie (st : State L) (token : String) (secure : Bool) (clear : Bool := false) :
    String :=
  let c := "tibackup_sid=" ++ (if clear then "" else token) ++
    "; HttpOnly; SameSite=Strict; Path=/" ++ (if secure then "; Secure" else "")
  if clear then c ++ "; Max-Age=0"
  else
    let ttl := match (st.getValue "web/session_ttl").toInt? with
      | some ttl => if ttl ≤ 0 then 3600 else ttl
      | none => 3600
    c ++ "; Max-Age=" ++ ttl.toInt.repr

/-- `statusToString`. -/
def statusToString : BackupStatus → String
  | .running => "running"
  | .failed => "failed"
  | .finished => "finished"
  | .standby => "standby"

/-- GET /api/health (public). -/
def health : Handler L := reads fun _ st =>
  let running := (L.manager.statuses st.manager).countP fun s => s.2 = .running
  .now <| jsonResp <| .obj
    [("status", .str "ok"),
     ("version", .str L.system.version),
     ("initSystem", .str (if L.system.isSystemd st.host then "systemd" else "other")),
     ("runningJobs", .int running)]

/-- GET /api/auth/status (public): tells an authenticated caller its CSRF token. -/
def authStatus : Handler L := fun req m st =>
  let setupRequired := (st.getValue "web/passhash").toString.isEmpty
  let v := st.sessions.validate m.now (sessionToken req)
  let st := { st with sessions := v.1 }
  let o := [("setupRequired", .bool setupRequired), ("authenticated", .bool v.2)]
  let o := if v.2 then o ++ [("csrf", .str (st.sessions.csrfFor (sessionToken req)))] else o
  (st, .now (jsonResp (.obj o)))

/-- Store a fresh salt and the PBKDF2 record of a password. -/
def setPassword (pw : String) (rawSalt : { raw : Bytes // raw.length = 16 }) (st : State L) :
    State L :=
  let salt := PasswordHash.generateSalt rawSalt
  (st.setValue "web/salt" (.str (fromLatin1 salt))).setValue "web/passhash"
    (.str (PasswordHash.hash L.digests pw salt PasswordHash.kDefaultIterations))

/-- The end of setup and of login: a new session and its cookie. -/
def signIn (m : Moment) (st : State L) : State L × Reply :=
  let r := st.sessions.createSession m.rawToken m.rawCsrf m.later m.created
  let st := { st with sessions := r.1 }
  (st, .now { status := .ok
              body := .obj [("ok", .bool true), ("csrf", .str r.2.2)]
              setCookie := some (buildSessionCookie st r.2.1 st.secureCookies) })

/-- POST /api/setup (public, one-shot). -/
def setup : Handler L := fun req m st =>
  if !(st.getValue "web/passhash").toString.isEmpty then
    (st, .now (errResp "setup already completed" .forbidden))
  else
    let pw := ((parseBody req).get "password").toString
    if utf16Length pw < 8 then
      (st, .now (errResp "password must be at least 8 characters" .badRequest))
    else signIn m (setPassword pw m.rawSalt st)

/-- POST /api/auth/login (public). -/
def login : Handler L := fun req m st =>
  let clientId := req.remoteAddress
  let a := st.sessions.loginAllowed m.now clientId
  let st := { st with sessions := a.1 }
  if !a.2 then
    (st, .now (errResp "too many failed attempts, try again later" .tooManyRequests))
  else
    let passhash := (st.getValue "web/passhash").toString
    let salt := toLatin1 (st.getValue "web/salt").toString
    if passhash.isEmpty then (st, .now (errResp "setup required" .conflict))
    else
      let pw := ((parseBody req).get "password").toString
      if !PasswordHash.verify L.digests pw salt passhash then
        let st := { st with sessions := st.sessions.loginFailed m.later clientId }
        (st, .now (errResp "invalid credentials" .unauthorized))
      else
        let st := { st with sessions := st.sessions.loginSucceeded clientId }
        -- A verified plaintext is at hand: migrate a legacy record.
        let st := if PasswordHash.needsUpgrade passhash then setPassword pw m.rawSalt st else st
        signIn m st

/-- POST /api/auth/logout (auth + csrf). -/
def logout : Handler L := withAuth .now <| withCsrf .now fun req _ st =>
  let st := { st with sessions := st.sessions.drop (sessionToken req) }
  (st, .now { status := .ok
              body := .obj [("ok", .bool true)]
              setCookie := some (buildSessionCookie st "" st.secureCookies true) })

end Api

/-- `setWebPassword` (`tiBackup --set-web-password`): the exit code. -/
def setWebPassword (pw : String) (rawSalt : { raw : Bytes // raw.length = 16 }) (st : State L) :
    State L × Nat :=
  if utf16Length pw < 8 then (st, 1) else (Api.setPassword pw rawSalt st, 0)

end TiBackup
