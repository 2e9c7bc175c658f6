import TiBackup.Lib.KeyedStore
import TiBackup.Lib.Json
import TiBackup.Model.PasswordHash
import TiBackup.Model.Records

/-!
# TiBackup.Model.Library

**What the daemon calls.** tiBackupLib, the operating system and the remote machines
are not part of this repository; `Library` is everything the modelled code uses of
them, and its laws are everything it relies on. Every result is about an arbitrary
`Library`.

* `Conf`: the main configuration; a value that was set is read back.
* `jobs`, `pbs`, `ssh`: the configuration stores, one record per name or uuid.
* `manager`: the backup manager, one registration per job name.
* `scheduler`: which slots a job has, and when `shouldRun` says yes.
* `digests`: the functions behind the password records.
* `system`: files, devices and mounts, and what remote machines answer. Queries read
  the host, commands return a new one.
-/

namespace TiBackup

open Lib

/-! ### Configuration values -/

/-- A `QVariant` as the configuration holds it; `invalid` is an absent key. -/
inductive QVariant
  | invalid
  | bool (b : Bool)
  | int (n : Int32)
  | str (s : String)
  deriving Repr, DecidableEq

namespace QVariant

def toString : QVariant → String
  | invalid => ""
  | bool b => if b then "true" else "false"
  | int n => n.toInt.repr
  | str s => s

/-- Text is true unless it is empty, `0` or `false`. -/
def toBool : QVariant → Bool
  | invalid => false
  | bool b => b
  | int n => n ≠ 0
  | str s => !(s.isEmpty || s = "0" || s.toLower = "false")

/-- `toInt(&ok)`: `none` when the conversion fails. -/
def toInt? : QVariant → Option Int32
  | invalid => none
  | bool b => some (if b then 1 else 0)
  | int n => some n
  | str s => (parseInt32 s).map Int32.ofInt

/-- `toInt()`: 0 when the conversion fails. -/
def toInt (v : QVariant) : Int32 := v.toInt?.getD 0

@[simp] theorem toString_str (s : String) : (str s).toString = s := rfl

end QVariant

/-! ### Stores -/

/-- The store of backup jobs: a keyed store that can also rename a job and look jobs
up by partition. -/
structure JobStore extends KeyedStore TiBackupJob.name where
  renameJob : Carrier → String → String → Carrier × Bool
  jobsByUuid : Carrier → String → List TiBackupJob
  /-- A rename that is refused has no effect. -/
  renameJob_false : ∀ {s a b}, (renameJob s a b).2 = false → (renameJob s a b).1 = s
  /-- A rename that succeeds moves the job to a name that was free. -/
  renameJob_true : ∀ {s a b}, (renameJob s a b).2 = true → find s b = none ∧
    ∃ job, find s a = some job ∧ ∀ k, find (renameJob s a b).1 k =
      if k = b then some { job with name := b } else if k = a then none else find s k
  jobsByUuid_perm : ∀ s uuid, (jobsByUuid s uuid).Perm
    ((toKeyedStore.items s).filter fun job => job.partitionUuid = uuid)

/-- `backupManager::backupStatus`. -/
inductive BackupStatus
  | running
  | failed
  | finished
  | standby
  deriving Repr, DecidableEq

/-- The backup manager: at most one running backup is registered under a name. -/
structure BackupManager where
  Carrier : Type
  /-- A daemon that has just started. -/
  initial : Carrier
  getBackupStatus : Carrier → String → BackupStatus
  /-- The whole status table. -/
  statuses : Carrier → List (String × BackupStatus)
  startBackup : Carrier → String → Carrier × Bool
  /-- The backup registered under a name is over, with a final status. -/
  backupEnded : Carrier → String → BackupStatus → Carrier
  initial_status : ∀ n, getBackupStatus initial n = .standby
  startBackup_running : ∀ {c n}, getBackupStatus c n = .running → startBackup c n = (c, false)
  startBackup_idle : ∀ {c n}, getBackupStatus c n ≠ .running → (startBackup c n).2 = true ∧
    ∀ m, getBackupStatus (startBackup c n).1 m = if m = n then .running else getBackupStatus c m
  status_backupEnded : ∀ c n s m,
    getBackupStatus (backupEnded c n s) m = if m = n then s else getBackupStatus c m

/-- `tiBackupScheduler`: a job is due in the grace period after one of its slots,
unless it has run since. Slots and last runs are seconds since the epoch, the current
time is in milliseconds. -/
structure TiBackupScheduler where
  isSlot : TiBackupJob → Int → Prop
  graceSecs : Int
  shouldRun : TiBackupJob → Int → Int → Bool
  shouldRun_iff : ∀ job nowMs lastRun, shouldRun job nowMs lastRun = true ↔
    ∃ slot, isSlot job slot ∧ 1000 * slot ≤ nowMs ∧ nowMs ≤ 1000 * (slot + graceSecs) ∧
      lastRun < slot

/-! ### Files, devices, remote machines -/

/-- One entry of a directory listing. -/
structure FileInfo where
  fileName : String
  isDir : Bool
  size : Int
  lastModified : Int
  deriving Repr, DecidableEq

/-- The filters the handlers list directories with. -/
inductive EntryFilter
  /-- Folders only. -/
  | dirs
  /-- Folders first, then files. -/
  | dirsAndFiles
  /-- Files named `*.log`. -/
  | logFiles
  deriving Repr, DecidableEq

/-- `tiBackupMailer::Params`. -/
structure MailParams where
  server : String
  port : Int32
  security : String
  auth : Bool
  username : String
  sender : String
  password : String
  deriving Repr, DecidableEq

/-- Outcome of a command whose failure carries a message. -/
structure CommandResult where
  ok : Bool
  message : String
  deriving Repr, DecidableEq

/-- `sshClient::TestResult`. -/
structure TestResult where
  ok : Bool
  fingerprint : String
  hostkey : String
  message : String
  deriving Repr, DecidableEq

/-- `sshClient::ListResult`. -/
structure ListResult where
  ok : Bool
  message : String
  entries : List FileInfo

/-- What a PBS connection is made with; `expectedFp` pins a certificate. -/
structure PbsLogin where
  host : String
  port : Int32
  user : String
  pass : String
  expectedFp : String
  deriving Repr, DecidableEq

/-- The machine the daemon runs on and everything it talks to. -/
structure HostSystem where
  Host : Type
  version : String
  backupDetailFolder : String
  isSystemd : Host → Bool
  -- devices and mounts
  attachedDisks : Host → List DeviceDisk
  partitionByUuid : Host → String → DeviceDiskPartition
  isMounted : Host → DeviceDiskPartition → Bool
  mountDir : Host → DeviceDiskPartition → String
  mountPartition : Host → DeviceDiskPartition → TiBackupEncLUKS → String → Host × String
  umountPartition : Host → DeviceDiskPartition → Host × Bool
  -- files
  canonicalPath : Host → String → String
  absolutePath : String → String
  entryInfoList : Host → String → EntryFilter → List FileInfo
  entryExists : Host → String → String → Bool
  makeDir : Host → String → String → Host × Bool
  readFile : Host → String → Option Bytes
  openForWriting : Host → String → Host × Bool
  writeAndClose : Host → String → Bytes → Host
  confineToScriptsDir : Host → String → String → String
  runLogDate : String → Option Int
  formatDate : Int → String
  -- remote machines
  securityFromString : String → String
  sendMail : Host → MailParams → String → CommandResult
  pbsAuth : Host → PbsLogin → Int × String
  fingerprintMatches : String → String → Bool
  pbsDatastores : Host → PbsLogin → Int × Json
  pbsDatastoreGroups : Host → PbsLogin → String → Int × Json
  sshTest : Host → SSHServer → TestResult
  sshListDir : Host → SSHServer → String → ListResult
  sshMkdir : Host → SSHServer → String → Host × CommandResult

/-- Everything the daemon uses of other code. -/
structure Library where
  Conf : Type
  getValue : Conf → String → QVariant
  setValue : Conf → String → QVariant → Conf
  getLogsDetailDir : Conf → String
  getValue_setValue : ∀ c k v k', getValue (setValue c k v) k' = if k' = k then v else getValue c k'
  jobs : JobStore
  pbs : KeyedStore PBServer.uuid
  ssh : KeyedStore SSHServer.uuid
  manager : BackupManager
  scheduler : TiBackupScheduler
  digests : Digests
  system : HostSystem

end TiBackup
