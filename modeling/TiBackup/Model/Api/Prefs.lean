import TiBackup.Model.Daemon

/-!
# TiBackup.Model.Api.Prefs

`/api/prefs`: reading and changing the main configuration, and the test mail.

The SMTP password is write-only: it is never returned, and an empty or absent field
keeps the stored one. `paths/scripts` is the confinement root of the pre- and
post-backup scripts and cannot be set from here.
-/

namespace TiBackup

open Lib

variable {L : Library}

namespace Api

/-- GET /api/prefs. -/
def getPrefs : Handler L := withAuth .now <| reads fun _ st =>
  .now <| jsonResp <| .obj
    [("debug", .bool (st.getValue "main/debug").toBool),
     ("paths", .obj
       [("backupjobs", .str (st.getValue "paths/backupjobs").toString),
        ("pbservers", .str (st.getValue "paths/pbservers").toString),
        ("logs", .str (st.getValue "paths/logs").toString),
        ("scripts", .str (st.getValue "paths/scripts").toString)]),
     ("smtp", .obj
       [("server", .str (st.getValue "smtp/server").toString),
        ("port", .int (st.getValue "smtp/port").toInt.toInt),
        ("security", .str (st.getValue "smtp/security").toString),
        ("auth", .bool (st.getValue "smtp/auth").toBool),
        ("username", .str (st.getValue "smtp/username").toString),
        ("from", .str (st.getValue "smtp/from").toString),
        ("password_set", .bool (!(st.getValue "smtp/password").toString.isEmpty))])]

/-- `if(o.contains(field)) cfg.setValue(key, conv(o[field]));` -/
def setIfPresent (o : Json.Fields) (field key : String) (conv : Json → QVariant) (st : State L) :
    State L :=
  if o.contains field then st.setValue key (conv (o.get field)) else st

/-- The stored form of a new SMTP password. -/
def encodePassword (pw : String) : String := toBase64 (toUtf8 pw)

/-- The `smtp` block of PUT /api/prefs. -/
def setSmtp (s : Json.Fields) (st : State L) : State L :=
  let st := setIfPresent s "server" "smtp/server" (fun v => .str v.toString) st
  let st := setIfPresent s "port" "smtp/port" (fun v => .int (v.toInt 0)) st
  let st := setIfPresent s "security" "smtp/security" (fun v => .str v.toString) st
  let st := setIfPresent s "auth" "smtp/auth" (fun v => .bool v.toBool) st
  let st := setIfPresent s "username" "smtp/username" (fun v => .str v.toString) st
  let st := setIfPresent s "from" "smtp/from" (fun v => .str v.toString) st
  if s.contains "password" then
    let pw := (s.get "password").toString
    if pw.isEmpty then st else st.setValue "smtp/password" (.str (encodePassword pw))
  else st

/-- The `paths` block of PUT /api/prefs; `scripts` is not settable. -/
def setPaths (p : Json.Fields) (st : State L) : State L :=
  ["backupjobs", "pbservers", "logs"].foldl
    (fun st k => setIfPresent p k ("paths/" ++ k) (fun v => .str v.toString) st) st

/-- PUT /api/prefs. -/
def putPrefs : Handler L := withAuth .now <| withCsrf .now fun req _ st =>
  let b := parseBody req
  let st :=
    if b.contains "debug" then
      let dbg := (b.get "debug").toBool
      { st.setValue "main/debug" (.bool dbg) with debugLogging := dbg }
    else st
  let st := if b.contains "paths" then setPaths (b.get "paths").toObject st else st
  let st := if b.contains "smtp" then setSmtp (b.get "smtp").toObject st else st
  (st, .now okResp)

/-- The parameters of a test mail: supplied fields win over the stored ones. -/
def mailParams (s : Json.Fields) (st : State L) : MailParams where
  server := if s.contains "server" then (s.get "server").toString
    else (st.getValue "smtp/server").toString
  port := if s.contains "port" then (s.get "port").toInt 0 else (st.getValue "smtp/port").toInt
  security := L.system.securityFromString <|
    if s.contains "security" then (s.get "security").toString
    else (st.getValue "smtp/security").toString
  auth := if s.contains "auth" then (s.get "auth").toBool else (st.getValue "smtp/auth").toBool
  username := if s.contains "username" then (s.get "username").toString
    else (st.getValue "smtp/username").toString
  sender := if s.contains "from" then (s.get "from").toString
    else (st.getValue "smtp/from").toString
  password := if (s.get "password").toString.isEmpty then
      fromUtf8 (fromBase64 (toLatin1 (st.getValue "smtp/password").toString))
    else (s.get "password").toString

/-- POST /api/prefs/test-mail. -/
def testMail : Handler L := withAuth .future <| withCsrf .future <| reads fun req st =>
  let b := parseBody req
  let recipient := String.ofList (trimmed isTextSpace (b.get "recipient").toString.toList)
  if recipient.isEmpty then .future (errResp "recipient required" .badRequest)
  else
    let p := mailParams (b.get "smtp").toObject st
    if p.server.isEmpty then .future (errResp "SMTP server not configured" .badRequest)
    else .later (.testMail p recipient)

end Api

end TiBackup
