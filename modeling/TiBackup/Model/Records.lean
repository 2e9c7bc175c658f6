import TiBackup.Lib.StringMap

/-!
# TiBackup.Model.Records

The configuration records the web layer reads and writes: backup jobs, PBS servers,
SSH servers, and the devices a job can back up to. The fields are the ones
`webserver/jsonmap.cpp` maps.

A C++ `int` is `Int32`, a `uint` is `UInt32`, a `QMap<QString, QString>` is a
`StringMap String`. The two enumerations arrive as `static_cast`s of arbitrary
integers, so their models carry the integer: a value outside the named ones is a
value the code can hold.
-/

namespace TiBackup

open Lib

/-- `tiBackupJobInterval`: when a job is due. -/
structure TiBackupJobInterval where
  value : Int32
  deriving Repr, DecidableEq

namespace TiBackupJobInterval

/-- Started by hand or by hotplug only. -/
def NONE : TiBackupJobInterval := ⟨0⟩
def DAILY : TiBackupJobInterval := ⟨1⟩
def WEEKLY : TiBackupJobInterval := ⟨2⟩
def MONTHLY : TiBackupJobInterval := ⟨3⟩

end TiBackupJobInterval

/-- `tiBackupEncLUKS`: how the target partition is unlocked. -/
structure TiBackupEncLUKS where
  value : Int32
  deriving Repr, DecidableEq

/-- `tiBackupJobSSHTarget`: folders pulled from one SSH server, source to
destination. -/
structure TiBackupJobSSHTarget where
  serverUuid : String := ""
  backupdirs : StringMap String := ∅

/-- `tiBackupJob`. -/
structure TiBackupJob where
  name : String
  device : String := ""
  partitionUuid : String := ""
  backupdirs : StringMap String := ∅
  deleteAddFileOnDest : Bool := false
  startBackupOnHotplug : Bool := false
  saveLog : Bool := false
  compareViaChecksum : Bool := false
  umountAfterBackup : Bool := true
  notify : Bool := false
  notifyRecipients : String := ""
  scriptBeforeBackup : String := ""
  scriptAfterBackup : String := ""
  intervalType : TiBackupJobInterval := .NONE
  intervalTime : String := ""
  intervalDay : Int32 := 0
  encLUKSType : TiBackupEncLUKS := ⟨0⟩
  encLUKSFilePath : String := ""
  pbs : Bool := false
  pbsServerUuid : String := ""
  pbsServerStorage : String := ""
  pbsBackupIds : List String := []
  pbsDestFolder : String := ""
  ssh : Bool := false
  sshTargets : List TiBackupJobSSHTarget := []

/-- `PBServer`: a Proxmox backup server. -/
structure PBServer where
  uuid : String
  name : String
  host : String
  port : UInt32
  username : String
  password : String
  fingerprint : String
  keyfile : String
  keypass : String
  deriving Repr, DecidableEq

/-- `SSHServer`: a remote machine folders are pulled from. -/
structure SSHServer where
  uuid : String
  name : String
  host : String
  port : UInt32
  username : String
  keyfile : String
  keypass : String
  hostkey : String
  deriving Repr, DecidableEq

/-- `DeviceDiskPartition`. -/
structure DeviceDiskPartition where
  name : String
  uuid : String
  label : String
  type : String
  deriving Repr, DecidableEq

/-- `DeviceDisk`, its partitions read. -/
structure DeviceDisk where
  name : String
  uuid : String
  devname : String
  devtype : String
  vendor : String
  model : String
  partitions : List DeviceDiskPartition
  deriving Repr, DecidableEq

end TiBackup
