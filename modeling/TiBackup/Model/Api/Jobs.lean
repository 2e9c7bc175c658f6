import TiBackup.Model.Api.Auth
import TiBackup.Model.JsonMap
import TiBackup.Model.Validate

/-!
# TiBackup.Model.Api.Jobs

`/api/jobs`: listing, reading, creating, changing, deleting and starting backup jobs.

A job is stored under its name, and its backup is registered with the manager under
the name it had when it was started. PUT renames the stored job when the body carries
another name, then saves the body under the new one.
-/

namespace TiBackup

open Lib

variable {L : Library}

namespace Api

def getJobByName (st : State L) (name : String) : Option TiBackupJob := L.jobs.find st.jobs name

/-- `getJobs`: all jobs, in listing order. -/
def allJobs (st : State L) : List TiBackupJob := L.jobs.items st.jobs

/-- `saveBackupJob`: store a job under its name. -/
def saveBackupJob (st : State L) (job : TiBackupJob) : State L :=
  { st with jobs := L.jobs.save st.jobs job }

/-- `confineToScripts`: the resolved path inside `paths/scripts`, empty to reject. -/
def confineToScripts (st : State L) (path : String) : String :=
  L.system.confineToScriptsDir st.host (st.getValue "paths/scripts").toString path

/-- The status a job is reported with. -/
def jobStatus (st : State L) (name : String) : String :=
  statusToString (L.manager.getBackupStatus st.manager name)

/-- One entry of GET /api/jobs. -/
def jobEntry (st : State L) (job : TiBackupJob) : Json.Fields :=
  [("name", .str job.name),
   ("device", .str job.device),
   ("partition_uuid", .str job.partitionUuid),
   ("status", .str (jobStatus st job.name))]

/-- GET /api/jobs. -/
def getJobs : Handler L := withAuth .now <| reads fun _ st =>
  .now <| jsonResp <| .arr <| (allJobs st).map fun job => .obj (jobEntry st job)

/-- The body of GET /api/jobs/<name>. -/
def jobResponse (st : State L) (name : String) (job : TiBackupJob) : Json.Fields :=
  JsonMap.jobToJson job ++ [("status", .str (jobStatus st name))]

/-- GET /api/jobs/<name>. -/
def getJob (name : String) : Handler L := withAuth .now <| reads fun _ st =>
  match getJobByName st name with
  | none => .now (errResp "job not found" .notFound)
  | some job => .now (jsonResp (.obj (jobResponse st name job)))

/-- The checks of a job body that POST and PUT share: PBS backup ids, then scripts. -/
def jobBodyError (st : State L) (job : TiBackupJob) : Option Response :=
  if job.pbs && job.pbsBackupIds.any fun id => !validPbsBackupId id then
    some (errResp "invalid PBS backup id (expected vm/<id>, ct/<id> or host/<id>)" .badRequest)
  else if [job.scriptBeforeBackup, job.scriptAfterBackup].any fun s =>
      !s.isEmpty && (confineToScripts st s).isEmpty then
    some (errResp "script path must be inside the configured scripts directory" .badRequest)
  else none

/-- POST /api/jobs. -/
def postJob : Handler L := withAuth .now <| withCsrf .now fun req _ st =>
  let job := JsonMap.jobFromJson (parseBody req)
  if !validIdentifier job.name then
    (st, .now (errResp "invalid job name (allowed: letters, digits, . _ -)" .badRequest))
  else
    match jobBodyError st job with
    | some e => (st, .now e)
    | none =>
      if (getJobByName st job.name).isSome then
        (st, .now (errResp "a job with that name already exists" .conflict))
      else (saveBackupJob st job, .now okResp)

/-- PUT /api/jobs/<name>: update, rename if the body carries another name. -/
def putJob (name : String) : Handler L := withAuth .now <| withCsrf .now fun req _ st =>
  if !validIdentifier name then (st, .now (errResp "invalid job name" .badRequest))
  else
    let job := JsonMap.jobFromJson (parseBody req)
    match jobBodyError st job with
    | some e => (st, .now e)
    | none =>
      match getJobByName st name with
      | none => (st, .now (errResp "job not found" .notFound))
      | some _ =>
        if job.name ≠ "" ∧ job.name ≠ name then
          if !validIdentifier job.name then (st, .now (errResp "invalid job name" .badRequest))
          else
            -- Only the stored job moves, not what the manager or the scheduler know of it.
            let r := L.jobs.renameJob st.jobs name job.name
            let st := { st with jobs := r.1 }
            if !r.2 then (st, .now (errResp "rename failed (target exists?)" .conflict))
            else (saveBackupJob st job, .now okResp)
        -- No name in the body, or the same one.
        else (saveBackupJob st { job with name := name }, .now okResp)

/-- DELETE /api/jobs/<name>. -/
def deleteJob (name : String) : Handler L := withAuth .now <| withCsrf .now fun _ _ st =>
  if !validIdentifier name then (st, .now (errResp "invalid job name" .badRequest))
  else
    let r := L.jobs.remove st.jobs name
    let st := { st with jobs := r.1 }
    if !r.2 then (st, .now (errResp "delete failed" .notFound)) else (st, .now okResp)

/-- `m_manager->startBackup(name)`. -/
def startBackup (st : State L) (name : String) : State L × Bool :=
  let r := L.manager.startBackup st.manager name
  ({ st with manager := r.1 }, r.2)

/-- POST /api/jobs/<name>/start. -/
def startJob (name : String) : Handler L := withAuth .now <| withCsrf .now fun _ _ st =>
  let r := startBackup st name
  (r.1, .now (jsonResp (.obj [("ok", .bool true), ("started", .bool r.2)])))

end Api

end TiBackup
