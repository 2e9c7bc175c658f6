import TiBackup.Lib.Sha256
import TiBackup.Model.Daemon

/-!
# TiBackup.Model.Reference

**A library to run the model with.** Configuration and stores are maps, the digests
are the real ones, the scheduler knows daily jobs in UTC with a grace period of one
hour, and the host has no disks, no files and no network.
-/

namespace TiBackup

open Lib

namespace Reference

/-- The job store: a map by name, enumerated by name. -/
def jobs : JobStore where
  toKeyedStore := KeyedStore.ofMap TiBackupJob.name
  renameJob s a b :=
    match (KeyedStore.ofMap TiBackupJob.name).find s b, (KeyedStore.ofMap TiBackupJob.name).find s a with
    | none, some job =>
      ((KeyedStore.ofMap TiBackupJob.name).save ((KeyedStore.ofMap TiBackupJob.name).remove s a).1
        { job with name := b }, true)
    | _, _ => (s, false)
  jobsByUuid s uuid :=
    ((KeyedStore.ofMap TiBackupJob.name).items s).filter fun job => job.partitionUuid = uuid
  renameJob_false h := by
    split at h
    · cases h
    · rfl
  renameJob_true h := by
    split at h
    · next job hb ha =>
      refine ⟨hb, job, ha, ?_⟩
      intro k
      refine ((KeyedStore.ofMap TiBackupJob.name).find_save _ _ _).trans ?_
      rw [KeyedStore.find_remove]
    · cases h
  jobsByUuid_perm _ _ := List.Perm.refl _

/-- The backup manager: a map of the last status of each name. -/
def manager : BackupManager where
  Carrier := StringMap BackupStatus
  initial := ∅
  getBackupStatus t n := t[n]?.getD .standby
  statuses t := t.toList
  startBackup t n :=
    if t[n]?.getD .standby = .running then (t, false) else (t.insert n .running, true)
  backupEnded t n s := t.insert n s
  initial_status _ := by simp
  startBackup_running h := by rw [if_pos h]
  startBackup_idle h := by
    rw [if_neg h]
    refine ⟨rfl, ?_⟩
    intro m
    rw [StringMap.get_insert]
    split <;> rfl
  status_backupEnded t n s m := by
    rw [StringMap.get_insert]
    split <;> rfl

/-- The second of the day written as `hh:mm`. -/
def secondOfDay (time : String) : Int :=
  match time.toList with
  | [a, b, ':', c, d] =>
    36000 * (a.toNat - 48) + 3600 * (b.toNat - 48) + 600 * (c.toNat - 48) + 60 * (d.toNat - 48)
  | _ => 0

/-- The last second at or before `now` that is `time` of some day. -/
def lastSlot (time : String) (now : Int) : Int := now - (now - secondOfDay time) % 86400

def graceSecs : Int := 3600

/-- The scheduler of daily jobs. -/
def scheduler : TiBackupScheduler where
  isSlot job slot := job.intervalType = .DAILY ∧ (slot - secondOfDay job.intervalTime) % 86400 = 0
  graceSecs := graceSecs
  shouldRun job nowMs lastRun :=
    job.intervalType = .DAILY &&
      decide (nowMs ≤ 1000 * (lastSlot job.intervalTime (nowMs / 1000) + graceSecs) ∧
        lastRun < lastSlot job.intervalTime (nowMs / 1000))
  shouldRun_iff job nowMs lastRun := by
    generalize hoff : secondOfDay job.intervalTime = off
    simp only [lastSlot, hoff, Bool.and_eq_true, decide_eq_true_eq]
    constructor
    · rintro ⟨hdaily, hgrace, hlast⟩
      exact ⟨_, ⟨hdaily, by omega⟩, by omega, hgrace, hlast⟩
    · rintro ⟨slot, ⟨hdaily, hslot⟩, hle, hgrace, hlast⟩
      refine ⟨hdaily, ?_, ?_⟩
      · omega
      · omega

/-- The digests of Qt. -/
def digests : Digests where
  deriveKeyPbkdf2 := pbkdf2Sha256
  sha256 := Lib.sha256
  length_deriveKeyPbkdf2 password salt _ keyLen h := length_pbkdf2Sha256 password salt keyLen h
  length_sha256 := Lib.length_sha256

/-- A machine with nothing attached to it. -/
def system : HostSystem where
  Host := Unit
  version := "0.0"
  backupDetailFolder := "detail"
  isSystemd _ := false
  attachedDisks _ := []
  partitionByUuid _ _ := ⟨"", "", "", ""⟩
  isMounted _ _ := false
  mountDir _ _ := ""
  mountPartition _ _ _ _ := ((), "")
  umountPartition _ _ := ((), false)
  canonicalPath _ _ := ""
  absolutePath path := path
  entryInfoList _ _ _ := []
  entryExists _ _ _ := false
  makeDir _ _ _ := ((), false)
  readFile _ _ := none
  openForWriting _ _ := ((), false)
  writeAndClose _ _ _ := ()
  confineToScriptsDir _ _ _ := ""
  runLogDate _ := none
  formatDate _ := ""
  securityFromString s := s
  sendMail _ _ _ := ⟨false, "no network"⟩
  pbsAuth _ _ := (0, "")
  fingerprintMatches a b := a = b
  pbsDatastores _ _ := (0, .null)
  pbsDatastoreGroups _ _ _ := (0, .null)
  sshTest _ _ := ⟨false, "", "", "no network"⟩
  sshListDir _ _ _ := ⟨false, "no network", []⟩
  sshMkdir _ _ _ := ((), ⟨false, "no network"⟩)

/-- All of it. -/
def library : Library where
  Conf := StringMap QVariant
  getValue conf k := conf[k]?.getD .invalid
  setValue conf k v := conf.insert k v
  getLogsDetailDir _ := ""
  getValue_setValue conf k v k' := by
    rw [StringMap.get_insert]
    split <;> rfl
  jobs := jobs
  pbs := KeyedStore.ofMap PBServer.uuid
  ssh := KeyedStore.ofMap SSHServer.uuid
  manager := manager
  scheduler := scheduler
  digests := digests
  system := system

/-- The bytes every random draw of the reference runs gives. -/
def rawToken : RandomBytes := ⟨List.replicate 32 7, rfl⟩

/-- A state with one live session, token `sid` and CSRF token `csrf`, and empty
stores. -/
def initial : State library where
  conf := (∅ : StringMap QVariant)
  sessions := { sessions := (∅ : StringMap Session).insert "sid" { csrf := "csrf", lastSeen := 0 } }
  jobs := KeyedStore.ofMap.empty TiBackupJob.name
  pbs := KeyedStore.ofMap.empty PBServer.uuid
  ssh := KeyedStore.ofMap.empty SSHServer.uuid
  manager := (∅ : StringMap BackupStatus)
  host := ()
  debugLogging := false
  secureCookies := false

/-- The reference library on another machine, with its own folder for the run logs. -/
def libraryOn (sys : HostSystem) (detailDir : StringMap QVariant → String) : Library :=
  { library with getLogsDetailDir := detailDir, system := sys }

/-- A daemon on that machine, with the same live session. -/
def stateOn (sys : HostSystem) (detailDir : StringMap QVariant → String)
    (conf : StringMap QVariant) (host : sys.Host) : State (libraryOn sys detailDir) where
  conf := conf
  sessions := initial.sessions
  jobs := initial.jobs
  pbs := initial.pbs
  ssh := initial.ssh
  manager := initial.manager
  host := host
  debugLogging := false
  secureCookies := false

/-- A request of that session. -/
def request (body : Json) : Request where
  cookie := "tibackup_sid=sid"
  csrfToken := "csrf"
  body := some body

/-- A moment one second later. -/
def moment (uuid : String) : Moment where
  now := 1
  later := 1
  created := 1
  rawToken := rawToken
  rawCsrf := rawToken
  rawSalt := ⟨List.replicate 16 7, rfl⟩
  uuid := uuid

end Reference

end TiBackup
