import TiBackup.Lib.Json
import TiBackup.Model.Records

/-!
# TiBackup.Model.JsonMap

`webserver/jsonmap.cpp`: the records as JSON and back.

Reading never fails; a field that is absent or has the wrong type gets its default
(`umount_after_backup` is on by default, the ports are 8007 and 22). The record
constructors draw a fresh uuid, which is an argument here; a non-empty `uuid` field
replaces it. Secrets are written only on request, and no route requests them.
-/

namespace TiBackup

open Lib

namespace JsonMap

/-- The entries of a folder map, in key order. -/
def backupdirsToJson (dirs : StringMap String) : Json :=
  .arr (dirs.toList.map fun d => .obj [("source", .str d.1), ("dest", .str d.2)])

/-- Insert the `source`/`dest` pairs one after another. -/
def backupdirsFromJson (v : Json) : StringMap String :=
  StringMap.ofPairs <| v.toArray.map fun d =>
    ((d.toObject.get "source").toString, (d.toObject.get "dest").toString)

def sshTargetToJson (t : TiBackupJobSSHTarget) : Json :=
  .obj [("server_uuid", .str t.serverUuid), ("backupdirs", backupdirsToJson t.backupdirs)]

def sshTargetFromJson (v : Json) : TiBackupJobSSHTarget where
  serverUuid := (v.toObject.get "server_uuid").toString
  backupdirs := backupdirsFromJson (v.toObject.get "backupdirs")

def jobToJson (job : TiBackupJob) : Json.Fields :=
  [("name", .str job.name),
   ("device", .str job.device),
   ("partition_uuid", .str job.partitionUuid),
   ("backupdirs", backupdirsToJson job.backupdirs),
   ("delete_add_file_on_dest", .bool job.deleteAddFileOnDest),
   ("start_backup_on_hotplug", .bool job.startBackupOnHotplug),
   ("save_log", .bool job.saveLog),
   ("compare_via_checksum", .bool job.compareViaChecksum),
   ("umount_after_backup", .bool job.umountAfterBackup),
   ("notify", .bool job.notify),
   ("notifyRecipients", .str job.notifyRecipients),
   ("scriptBeforeBackup", .str job.scriptBeforeBackup),
   ("scriptAfterBackup", .str job.scriptAfterBackup),
   ("intervalType", .int job.intervalType.value.toInt),
   ("intervalTime", .str job.intervalTime),
   ("intervalDay", .int job.intervalDay.toInt),
   ("encLUKSType", .int job.encLUKSType.value.toInt),
   ("encLUKSFilePath", .str job.encLUKSFilePath),
   ("pbs", .bool job.pbs),
   ("pbs_server_uuid", .str job.pbsServerUuid),
   ("pbs_server_storage", .str job.pbsServerStorage),
   ("pbs_backup_ids", .arr (job.pbsBackupIds.map .str)),
   ("pbs_dest_folder", .str job.pbsDestFolder),
   ("ssh", .bool job.ssh),
   ("ssh_targets", .arr (job.sshTargets.map sshTargetToJson))]

def jobFromJson (o : Json.Fields) : TiBackupJob where
  name := (o.get "name").toString
  device := (o.get "device").toString
  partitionUuid := (o.get "partition_uuid").toString
  backupdirs := backupdirsFromJson (o.get "backupdirs")
  deleteAddFileOnDest := (o.get "delete_add_file_on_dest").toBool
  startBackupOnHotplug := (o.get "start_backup_on_hotplug").toBool
  saveLog := (o.get "save_log").toBool
  compareViaChecksum := (o.get "compare_via_checksum").toBool
  -- Absent -> true, so that a client that does not send the field keeps unmounting.
  umountAfterBackup :=
    if o.contains "umount_after_backup" then (o.get "umount_after_backup").toBool else true
  notify := (o.get "notify").toBool
  notifyRecipients := (o.get "notifyRecipients").toString
  scriptBeforeBackup := (o.get "scriptBeforeBackup").toString
  scriptAfterBackup := (o.get "scriptAfterBackup").toString
  intervalType := ⟨(o.get "intervalType").toInt 0⟩
  intervalTime := (o.get "intervalTime").toString
  intervalDay := (o.get "intervalDay").toInt 0
  encLUKSType := ⟨(o.get "encLUKSType").toInt 0⟩
  encLUKSFilePath := (o.get "encLUKSFilePath").toString
  pbs := (o.get "pbs").toBool
  pbsServerUuid := (o.get "pbs_server_uuid").toString
  pbsServerStorage := (o.get "pbs_server_storage").toString
  pbsBackupIds := (o.get "pbs_backup_ids").toArray.map Json.toString
  pbsDestFolder := (o.get "pbs_dest_folder").toString
  ssh := (o.get "ssh").toBool
  sshTargets := (o.get "ssh_targets").toArray.map sshTargetFromJson

/-- `pbServerToJson`; the port goes through `static_cast<int>`. -/
def pbServerToJson (srv : PBServer) (includeSecrets : Bool) : Json.Fields :=
  [("uuid", .str srv.uuid),
   ("name", .str srv.name),
   ("host", .str srv.host),
   ("port", .int srv.port.toInt32.toInt),
   ("username", .str srv.username),
   ("fingerprint", .str srv.fingerprint),
   ("keyfile", .str srv.keyfile)] ++
  if includeSecrets then [("password", .str srv.password), ("keypass", .str srv.keypass)] else []

/-- `pbServerFromJson`; the constructor's uuid stays unless one is supplied. -/
def pbServerFromJson (fresh : String) (o : Json.Fields) : PBServer where
  uuid := if (o.get "uuid").toString.isEmpty then fresh else (o.get "uuid").toString
  name := (o.get "name").toString
  host := (o.get "host").toString
  port := ((o.get "port").toInt 8007).toUInt32
  username := (o.get "username").toString
  password := (o.get "password").toString
  fingerprint := (o.get "fingerprint").toString
  keyfile := (o.get "keyfile").toString
  keypass := (o.get "keypass").toString

/-- `sshServerToJson`: `hostkey_set` tells whether a key is pinned without telling
the key. -/
def sshServerToJson (srv : SSHServer) (includeSecrets : Bool) : Json.Fields :=
  [("uuid", .str srv.uuid),
   ("name", .str srv.name),
   ("host", .str srv.host),
   ("port", .int srv.port.toInt32.toInt),
   ("username", .str srv.username),
   ("keyfile", .str srv.keyfile),
   ("hostkey_set", .bool (!srv.hostkey.isEmpty))] ++
  if includeSecrets then [("keypass", .str srv.keypass)] else []

/-- `sshServerFromJson`; the constructor's uuid stays unless one is supplied. -/
def sshServerFromJson (fresh : String) (o : Json.Fields) : SSHServer where
  uuid := if (o.get "uuid").toString.isEmpty then fresh else (o.get "uuid").toString
  name := (o.get "name").toString
  host := (o.get "host").toString
  port := ((o.get "port").toInt 22).toUInt32
  username := (o.get "username").toString
  keyfile := (o.get "keyfile").toString
  keypass := (o.get "keypass").toString
  hostkey := (o.get "hostkey").toString

def partitionToJson (p : DeviceDiskPartition) : Json.Fields :=
  [("name", .str p.name), ("uuid", .str p.uuid), ("label", .str p.label), ("type", .str p.type)]

def diskToJson (d : DeviceDisk) : Json.Fields :=
  [("name", .str d.name),
   ("uuid", .str d.uuid),
   ("devname", .str d.devname),
   ("devtype", .str d.devtype),
   ("vendor", .str d.vendor),
   ("model", .str d.model),
   ("partitions", .arr (d.partitions.map fun p => .obj (partitionToJson p)))]

/-! ### Reading back what was written

The mapped fields come first in the object that is read; whatever a client appends
after them is looked up only under names the writer does not use. -/

@[simp] theorem backupdirsFromJson_toJson (dirs : StringMap String) :
    backupdirsFromJson (backupdirsToJson dirs) = dirs := by
  rw [backupdirsFromJson, backupdirsToJson, Json.toArray_arr, List.map_map]
  have hpairs : ∀ d ∈ dirs.toList,
      ((fun v : Json => ((v.toObject.get "source").toString, (v.toObject.get "dest").toString)) ∘
        fun d : String × String => Json.obj [("source", .str d.1), ("dest", .str d.2)]) d = d :=
    fun _ _ => rfl
  rw [List.map_congr_left hpairs, List.map_id', StringMap.ofPairs_toList]

@[simp] theorem sshTargetFromJson_toJson (t : TiBackupJobSSHTarget) :
    sshTargetFromJson (sshTargetToJson t) = t := by
  have hdirs : backupdirsFromJson (Json.Fields.get [("server_uuid", .str t.serverUuid),
      ("backupdirs", backupdirsToJson t.backupdirs)] "backupdirs") = t.backupdirs :=
    backupdirsFromJson_toJson t.backupdirs
  rw [sshTargetFromJson, sshTargetToJson, Json.toObject_obj, hdirs]
  rfl

/-- A job read from what was written for it, whatever follows in the object. -/
theorem jobFromJson_toJson (job : TiBackupJob) (extra : Json.Fields) :
    jobFromJson (jobToJson job ++ extra) = job := by
  have hids : ((job.pbsBackupIds.map Json.str).map Json.toString) = job.pbsBackupIds := by
    rw [List.map_map]
    exact List.map_id _
  have htargets : ((job.sshTargets.map sshTargetToJson).map sshTargetFromJson) = job.sshTargets := by
    rw [List.map_map]
    exact List.map_id'' sshTargetFromJson_toJson _
  simp [jobFromJson, jobToJson, Json.Fields.get, Json.Fields.contains, List.lookup_cons, hids, htargets]

/-- A PBS server read from what was written for it without secrets, followed by
blank fields: everything but the two secrets, which are blank. -/
theorem pbServerFromJson_toJson (fresh : String) (srv : PBServer) {extra : Json.Fields}
    (hblank : ∀ f ∈ extra, f.2 = .str "") :
    { pbServerFromJson fresh (pbServerToJson srv false ++ extra) with uuid := srv.uuid } =
      { srv with password := "", keypass := "" } := by
  have hpassword : (Json.Fields.get (pbServerToJson srv false ++ extra) "password").toString = "" :=
    Json.toString_get_of_blank hblank "password"
  have hkeypass : (Json.Fields.get (pbServerToJson srv false ++ extra) "keypass").toString = "" :=
    Json.toString_get_of_blank hblank "keypass"
  rw [pbServerFromJson, hpassword, hkeypass]
  simp [pbServerToJson, Json.Fields.get, List.lookup_cons]

/-- The same for an SSH server, whose secrets are the key passphrase and the pinned
host key. -/
theorem sshServerFromJson_toJson (fresh : String) (srv : SSHServer) {extra : Json.Fields}
    (hblank : ∀ f ∈ extra, f.2 = .str "") :
    { sshServerFromJson fresh (sshServerToJson srv false ++ extra) with uuid := srv.uuid } =
      { srv with keypass := "", hostkey := "" } := by
  have hkeypass : (Json.Fields.get (sshServerToJson srv false ++ extra) "keypass").toString = "" :=
    Json.toString_get_of_blank hblank "keypass"
  have hhostkey : (Json.Fields.get (sshServerToJson srv false ++ extra) "hostkey").toString = "" :=
    Json.toString_get_of_blank hblank "hostkey"
  rw [sshServerFromJson, hkeypass, hhostkey]
  simp [sshServerToJson, Json.Fields.get, List.lookup_cons]

end JsonMap

end TiBackup
