import TiBackup.Model.Api.Jobs

/-!
# TiBackup.Model.DiskMain

`diskmain.cpp`: what starts backups besides the web interface. `onTaskCheck` runs every
minute and once when the daemon starts, `onDiskAdded` when a disk is plugged in.

The last run of a job is kept in a state file of its own, not in the configuration of
the job, under a key made of the name of the job. The file outlives the process; the
backup manager and the sessions do not.

A manager that is asked again for a backup that is running does nothing, so its state does
not tell how often it was asked. The functions here also return the jobs they call
`startBackup` for, one for each call.
-/

namespace TiBackup

open Lib

/-- The running daemon and the scheduler state file. -/
structure DiskMain (L : Library) where
  state : State L
  schedulerState : StringMap Int

variable {L : Library}

namespace DiskMain

/-- `QString("%1/last_run").arg(job.name)`. -/
def lastRunKey (name : String) : String := name ++ "/last_run"

/-- `state.value(key).toLongLong()`: 0 when there is no such key. -/
def lastRun (schedulerState : StringMap Int) (name : String) : Int :=
  schedulerState[lastRunKey name]?.getD 0

/-- `manager->startBackup(job.name)`, one more call. -/
def startBackup (r : State L × List TiBackupJob) (job : TiBackupJob) :
    State L × List TiBackupJob :=
  ((Api.startBackup r.1 job.name).1, r.2 ++ [job])

/-- `onDiskAdded`: start the hotplug jobs of every partition of the disk. -/
def onDiskAdded (disk : DeviceDisk) (st : State L) : State L × List TiBackupJob :=
  disk.partitions.foldl (fun r part =>
    (L.jobs.jobsByUuid r.1.jobs part.uuid).foldl (fun r job =>
      if job.startBackupOnHotplug = false then r else startBackup r job) r) (st, [])

/-- One job of `onTaskCheck`. -/
def checkJob (nowMs : Int) (r : DiskMain L × List TiBackupJob) (job : TiBackupJob) :
    DiskMain L × List TiBackupJob :=
  if job.intervalType = .NONE then r
  else if L.scheduler.shouldRun job nowMs (lastRun r.1.schedulerState job.name) then
    -- The run is recorded before it is launched.
    let schedulerState := r.1.schedulerState.insert (lastRunKey job.name) (nowMs / 1000)
    let started := startBackup (r.1.state, r.2) job
    (⟨started.1, schedulerState⟩, started.2)
  else r

/-- `onTaskCheck`, at a time in milliseconds. -/
def onTaskCheck (nowMs : Int) (d : DiskMain L) : DiskMain L × List TiBackupJob :=
  (Api.allJobs d.state).foldl (checkJob nowMs) (d, [])

/-- The session TTL of the configuration. -/
def sessionTtl (st : State L) : Int :=
  match (st.getValue "web/session_ttl").toInt? with
  -- A number that makes no sense counts as none.
  | some ttl => if ttl ≤ 0 then 3600 else ttl.toInt
  | none => 3600

/-- A new process over the same files: nobody is logged in and no backup is running.
Whether it serves TLS depends on the certificate files. -/
def restarted (tls : Bool) (st : State L) : State L :=
  { st with
    sessions := { ttl := sessionTtl st }
    manager := L.manager.initial
    debugLogging := (st.getValue "main/debug").toBool
    secureCookies := tls }

/-- The daemon is started again: `DiskMain::DiskMain` checks the tasks at once. -/
def restart (tls : Bool) (nowMs : Int) (d : DiskMain L) : DiskMain L × List TiBackupJob :=
  onTaskCheck nowMs { d with state := restarted tls d.state }

end DiskMain

end TiBackup
