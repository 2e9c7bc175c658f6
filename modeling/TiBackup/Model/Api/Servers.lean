import TiBackup.Model.Daemon
import TiBackup.Model.JsonMap
import TiBackup.Model.Validate

/-!
# TiBackup.Model.Api.Servers

`/api/pbs` and `/api/ssh`: the server records, and the routes that talk to a server.

Creating and changing a record run on the main thread from start to end. Testing an
SSH server does not: the handler copies the record, the connection test runs on a
worker for up to twenty seconds, and on success the worker saves its copy with the
captured host key (`sshTestDone`).
-/

namespace TiBackup

open Lib

variable {L : Library}

namespace Api

/-- `HttpStatus::isSuccessful`. -/
def isSuccessful (code : Int) : Bool := 200 ≤ code && code < 300

/-! ### PBS servers -/

def getPbsByUuid (st : State L) (uuid : String) : Option PBServer := L.pbs.find st.pbs uuid

def savePbs (st : State L) (srv : PBServer) : State L := { st with pbs := L.pbs.save st.pbs srv }

/-- GET /api/pbs. -/
def getPbsList : Handler L := withAuth .now <| reads fun _ st =>
  .now <| jsonResp <| .arr <| (L.pbs.items st.pbs).map fun srv =>
    .obj (JsonMap.pbServerToJson srv false)

/-- GET /api/pbs/<uuid>. -/
def getPbs (uuid : String) : Handler L := withAuth .now <| reads fun _ st =>
  match getPbsByUuid st uuid with
  | none => .now (errResp "server not found" .notFound)
  | some srv => .now (jsonResp (.obj (JsonMap.pbServerToJson srv false)))

/-- POST /api/pbs: a client-supplied uuid is accepted if it is a plain uuid. -/
def postPbs : Handler L := withAuth .now <| withCsrf .now fun req m st =>
  let srv := JsonMap.pbServerFromJson m.uuid (parseBody req)
  if srv.name.isEmpty || srv.host.isEmpty then
    (st, .now (errResp "name and host required" .badRequest))
  else if !validUuid srv.uuid then (st, .now (errResp "invalid server id" .badRequest))
  else (savePbs st srv, .now (jsonResp (.obj [("ok", .bool true), ("uuid", .str srv.uuid)])))

/-- PUT /api/pbs/<uuid>: secrets are kept if omitted. -/
def putPbs (uuid : String) : Handler L := withAuth .now <| withCsrf .now fun req m st =>
  if !validUuid uuid then (st, .now (errResp "invalid server id" .badRequest))
  else
    match getPbsByUuid st uuid with
    | none => (st, .now (errResp "server not found" .notFound))
    | some existing =>
      -- The secrets never leave the daemon, so a blank one means the stored one.
      let srv := { JsonMap.pbServerFromJson m.uuid (parseBody req) with uuid := uuid }
      let srv := if srv.password.isEmpty then { srv with password := existing.password } else srv
      let srv := if srv.keypass.isEmpty then { srv with keypass := existing.keypass } else srv
      (savePbs st srv, .now okResp)

/-- DELETE /api/pbs/<uuid>. -/
def deletePbs (uuid : String) : Handler L := withAuth .now <| withCsrf .now fun _ _ st =>
  if !validUuid uuid then (st, .now (errResp "invalid server id" .badRequest))
  else
    let r := L.pbs.remove st.pbs uuid
    let st := { st with pbs := r.1 }
    if !r.2 then (st, .now (errResp "delete failed" .notFound)) else (st, .now okResp)

/-- POST /api/pbs/test: a saved server by its uuid, or the fields of the form. -/
def pbsTest : Handler L := withAuth .future <| withCsrf .future <| reads fun req st =>
  let b := parseBody req
  let uuid := (b.get "uuid").toString
  if !uuid.isEmpty then
    match getPbsByUuid st uuid with
    | none => .future (errResp "server not found" .notFound)
    | some s => .later (.pbsTest ⟨s.host, s.port.toInt32, s.username, s.password, s.fingerprint⟩)
  else
    -- A form that was never saved has an empty uuid.
    .later (.pbsTest ⟨(b.get "host").toString, (b.get "port").toInt 8007,
      (b.get "username").toString, (b.get "password").toString, (b.get "fingerprint").toString⟩)

/-- The worker of POST /api/pbs/test, from what the connection gave. -/
def pbsTestDone (login : PbsLogin) (code : Int) (presented : String) : Response :=
  jsonResp <| .obj <|
    [("ok", .bool (isSuccessful code)), ("status", .int code), ("fingerprint", .str presented)] ++
    if login.expectedFp.isEmpty then []
    else [("verified",
      .bool (!presented.isEmpty && L.system.fingerprintMatches presented login.expectedFp))]

/-- How a stored PBS server is logged in to. -/
def pbLogin (pb : PBServer) : PbsLogin :=
  ⟨pb.host, pb.port.toInt32, pb.username, pb.password, pb.fingerprint⟩

/-- GET /api/pbs/<uuid>/datastores. -/
def getDatastores (uuid : String) : Handler L := withAuth .future <| reads fun _ st =>
  match getPbsByUuid st uuid with
  | none => .future (errResp "server not found" .notFound)
  | some pb => .later (.pbsDatastores pb)

/-- GET /api/pbs/<uuid>/datastores/<ds>/groups. -/
def getDatastoreGroups (uuid datastore : String) : Handler L := withAuth .future <| reads fun _ st =>
  match getPbsByUuid st uuid with
  | none => .future (errResp "server not found" .notFound)
  | some pb => .later (.pbsGroups pb datastore)

/-- The workers of the two datastore routes: log in, ask, return the `data` array. -/
def pbsQueryDone (code : Int) (answer : Int × Json) : Response :=
  if !isSuccessful code then errResp "PBS authentication failed" .badGateway
  else if !isSuccessful answer.1 then errResp "PBS request failed" .badGateway
  else jsonResp (.arr (answer.2.toObject.get "data").toArray)

/-! ### SSH servers -/

def getSshByUuid (st : State L) (uuid : String) : Option SSHServer := L.ssh.find st.ssh uuid

def saveSsh (st : State L) (srv : SSHServer) : State L := { st with ssh := L.ssh.save st.ssh srv }

/-- GET /api/ssh. -/
def getSshList : Handler L := withAuth .now <| reads fun _ st =>
  .now <| jsonResp <| .arr <| (L.ssh.items st.ssh).map fun srv =>
    .obj (JsonMap.sshServerToJson srv false)

/-- GET /api/ssh/<uuid>. -/
def getSsh (uuid : String) : Handler L := withAuth .now <| reads fun _ st =>
  match getSshByUuid st uuid with
  | none => .now (errResp "server not found" .notFound)
  | some srv => .now (jsonResp (.obj (JsonMap.sshServerToJson srv false)))

/-- POST /api/ssh: a client-supplied uuid is accepted if it is a plain uuid. -/
def postSsh : Handler L := withAuth .now <| withCsrf .now fun req m st =>
  let srv := JsonMap.sshServerFromJson m.uuid (parseBody req)
  if srv.name.isEmpty || srv.host.isEmpty || srv.username.isEmpty then
    (st, .now (errResp "name, host and username required" .badRequest))
  else if !validUuid srv.uuid then (st, .now (errResp "invalid server id" .badRequest))
  else (saveSsh st srv, .now (jsonResp (.obj [("ok", .bool true), ("uuid", .str srv.uuid)])))

/-- PUT /api/ssh/<uuid>: key passphrase and host key are kept if omitted. -/
def putSsh (uuid : String) : Handler L := withAuth .now <| withCsrf .now fun req m st =>
  if !validUuid uuid then (st, .now (errResp "invalid server id" .badRequest))
  else
    match getSshByUuid st uuid with
    | none => (st, .now (errResp "server not found" .notFound))
    | some existing =>
      let srv := { JsonMap.sshServerFromJson m.uuid (parseBody req) with uuid := uuid }
      let srv := if srv.keypass.isEmpty then { srv with keypass := existing.keypass } else srv
      let srv := if srv.hostkey.isEmpty then { srv with hostkey := existing.hostkey } else srv
      (saveSsh st srv, .now okResp)

/-- DELETE /api/ssh/<uuid>. -/
def deleteSsh (uuid : String) : Handler L := withAuth .now <| withCsrf .now fun _ _ st =>
  if !validUuid uuid then (st, .now (errResp "invalid server id" .badRequest))
  else
    let r := L.ssh.remove st.ssh uuid
    let st := { st with ssh := r.1 }
    if !r.2 then (st, .now (errResp "delete failed" .notFound)) else (st, .now okResp)

/-- POST /api/ssh/test: copy the stored record, or take the form's, and leave the
connection test to a worker. -/
def sshTest : Handler L := withAuth .future <| withCsrf .future fun req m st =>
  let b := parseBody req
  let uuid := (b.get "uuid").toString
  if !uuid.isEmpty then
    match getSshByUuid st uuid with
    | none => (st, .future (errResp "server not found" .notFound))
    | some srv => (st, .later (.sshTest srv uuid))
  else (st, .later (.sshTest (JsonMap.sshServerFromJson m.uuid b) uuid))

/-- The end of the worker of POST /api/ssh/test: a captured host key is pinned by
saving the copied record with it. -/
def sshTestDone (srv : SSHServer) (uuid : String) (tr : TestResult) (st : State L) :
    State L × Response :=
  let o := [("ok", .bool tr.ok), ("fingerprint", .str tr.fingerprint), ("hostkey", .str tr.hostkey)]
  let o := if tr.ok then o else o ++ [("message", .str tr.message)]
  let st :=
    -- The copy goes back as it was taken, whatever was stored meanwhile.
    if tr.ok && !uuid.isEmpty && !tr.hostkey.isEmpty then
      saveSsh st { srv with uuid := uuid, hostkey := tr.hostkey }
    else st
  (st, jsonResp (.obj o))

/-- GET /api/ssh/<uuid>/browse. -/
def sshBrowse (uuid : String) : Handler L := withAuth .future <| reads fun req st =>
  match getSshByUuid st uuid with
  | none => .future (errResp "server not found" .notFound)
  | some srv =>
    let path := queryItemValue req "path"
    .later (.sshBrowse srv (if path.isEmpty then "/" else path))

/-- The remote parent folder: everything before the last slash, by string math. -/
def remoteParent (target : String) : String :=
  if target = "/" then "/"
  else
    let before := (target.toList.reverse.dropWhile (· ≠ '/')).drop 1
    if before.isEmpty then "/" else String.ofList before.reverse

/-- A directory entry as JSON. -/
def entryToJson (e : FileInfo) : Json :=
  .obj [("name", .str e.fileName), ("isDir", .bool e.isDir), ("size", .int e.size),
    ("mtime", .int e.lastModified)]

/-- The worker of the remote listing. -/
def sshBrowseDone (target : String) (lr : ListResult) : Response :=
  if !lr.ok then
    errResp (if lr.message.isEmpty then "remote listing failed" else lr.message) .badGateway
  else
    jsonResp <| .obj
      [("base", .str "/"), ("path", .str target), ("parent", .str (remoteParent target)),
       ("entries", .arr (lr.entries.map entryToJson))]

/-- The path of a new remote folder: trailing slashes of the parent are dropped. -/
def remoteChild (path name : String) : String :=
  let parent := if path.isEmpty then "/" else path
  let parent := parent.toList.rdropWhile (· = '/')
  if parent.isEmpty then "/" ++ name else String.ofList parent ++ "/" ++ name

/-- POST /api/ssh/<uuid>/mkdir. -/
def sshMkdir (uuid : String) : Handler L := withAuth .future <| withCsrf .future <|
  reads fun req st =>
    match getSshByUuid st uuid with
    | none => .future (errResp "server not found" .notFound)
    | some srv =>
      let b := parseBody req
      let name := (b.get "name").toString
      if !validIdentifier name then .future (errResp "invalid folder name" .badRequest)
      else .later (.sshMkdir srv (remoteChild (b.get "path").toString name))

/-- The answer of the remote mkdir worker. -/
def sshMkdirDone (full : String) (mr : CommandResult) : Response :=
  if !mr.ok then
    errResp (if mr.message.isEmpty then "remote mkdir failed" else mr.message) .badGateway
  else jsonResp (.obj [("ok", .bool true), ("path", .str full)])

end Api

end TiBackup
