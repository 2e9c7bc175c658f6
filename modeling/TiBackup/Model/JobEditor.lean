import TiBackup.Model.FolderEditor
import TiBackup.Model.Process

/-!
# TiBackup.Model.JobEditor

The editor of backup jobs of `var/www/js/app.js`: `newJob`, `editJob`, `onDeviceChange` and
`saveJob`, with the daemon that serves their requests.

The job that is edited is a JavaScript object; it is kept as its fields, since it is sent as
it is. The inputs of the editor are bound to its fields, and the lists in it are changed by
assigning a new one (`edit`).

`editJob` waits three times: for the job, for the devices, and for the page to show them,
since a partition can be selected only when it is offered. What it does after each is a
constructor of `JobCall`, with what it keeps meanwhile. Which devices are listed does not
matter here, so any list may be answered.

Beside the state a record is kept of what the admin assigned since the job was opened. It
decides nothing.
-/

namespace TiBackup

open Lib Lib.Machine

variable {L : Library}

/-- `blankJob`. -/
def blankJob : Json.Fields :=
  [("name", .str ""), ("device", .str ""), ("partition_uuid", .str ""), ("backupdirs", .arr []),
   ("delete_add_file_on_dest", .bool false), ("start_backup_on_hotplug", .bool false),
   ("save_log", .bool true), ("compare_via_checksum", .bool false),
   ("umount_after_backup", .bool true), ("notify", .bool false), ("notifyRecipients", .str ""),
   ("scriptBeforeBackup", .str ""), ("scriptAfterBackup", .str ""), ("intervalType", .int 0),
   ("intervalTime", .str "00:00"), ("intervalDay", .int 0), ("encLUKSType", .int 0),
   ("encLUKSFilePath", .str ""), ("pbs", .bool false), ("pbs_server_uuid", .str ""),
   ("pbs_server_storage", .str ""), ("pbs_backup_ids", .arr []), ("pbs_dest_folder", .str ""),
   ("ssh", .bool false), ("ssh_targets", .arr [])]

/-- `v || []`; an empty list counts as true. -/
def orEmpty : Json → Json
  | .null | .bool false | .str "" => .arr []
  | .num q => if q = 0 then .arr [] else .num q
  | v => v

/-- One of the SSH targets, with fields for the folder that is being typed. -/
def editedTarget (t : Json) : Json :=
  .obj [("server_uuid", t.toObject.get "server_uuid"),
    ("backupdirs", orEmpty (t.toObject.get "backupdirs")), ("_src", .str ""), ("_dst", .str "")]

/-- The job as `editJob` prepares it. -/
def editedJob (job : Json.Fields) : Json.Fields :=
  let job := job.set "backupdirs" (orEmpty (job.get "backupdirs"))
  job.set "ssh_targets" (.arr ((orEmpty (job.get "ssh_targets")).toArray.map editedTarget))

/-- A function that waits. -/
inductive JobCall
  /-- `editJob` waits for the job, -/
  | editJob (name : String) (req : Request) (reply : Option Response)
  /-- for the devices, -/
  | devices (job : Json.Fields)
  /-- and for the page. -/
  | nextTick (wantUuid : Json)
  /-- `saveJob` waits. The edits are those that were made by then. -/
  | saveJob (route : Route) (req : Request) (edits : List (String × Json)) (reply : Option Response)

/-- `editJob` is not over yet. -/
def JobCall.opens : JobCall → Bool
  | .saveJob _ _ _ _ => false
  | _ => true

/-- The editor, the functions that wait and the daemon. -/
structure JobEditor (L : Library) where
  daemon : Process L
  /-- What the browser sends along. -/
  cookie : String
  csrf : String
  devices : List Json := []
  job : Json.Fields := blankJob
  editorOpen : Bool := false
  editorNew : Bool := false
  editorOrigName : String := ""
  editorDevname : String := ""
  busy : Bool := false
  calls : List JobCall := []
  /-- Record: what was assigned since the job was opened. -/
  edits : List (String × Json) := []

/-- What can happen. -/
inductive JobEvent
  | newJob
  | editJob (name : String)
  /-- The admin changes a field of the job. -/
  | edit (field : String) (value : Json)
  | onDeviceChange (devname : String)
  | saveJob
  /-- The editor is closed without saving. -/
  | cancel
  /-- A list of the devices arrives, or it could not be loaded and is empty. -/
  | devices (list : List Json)
  /-- The daemon serves the request of a call. -/
  | serve (i : Nat) (m : Moment)
  /-- Its answer arrives. -/
  | answer (i : Nat)
  /-- It fails. -/
  | fail (i : Nat)
  /-- The devices for a call are there. -/
  | prepared (i : Nat)
  /-- The page shows them. -/
  | tick (i : Nat)
  /-- Something else happens in the daemon. -/
  | elsewhere (e : Process.Happening)

namespace JobEditor

/-- The text of a field. -/
def text (s : JobEditor L) (field : String) : String := (s.job.get field).toString

def newJob (s : JobEditor L) : JobEditor L :=
  { s with
    job := blankJob
    editorNew := true
    editorOrigName := ""
    editorDevname := ""
    editorOpen := true
    edits := [] }

/-- No route has an empty argument. -/
def editJob (s : JobEditor L) (name : String) : JobEditor L :=
  if name.isEmpty then s
  else { s with calls := s.calls ++ [.editJob name { cookie := s.cookie } none] }

/-- `editJob` goes on with the job. -/
def editJobLoaded (s : JobEditor L) (i : Nat) (name : String) (r : Response) : JobEditor L :=
  if r.status = .ok then
    { s with
      editorNew := false
      editorOrigName := name
      calls := s.calls.set i (.devices (editedJob r.body.toObject)) }
  else { s with calls := s.calls.eraseIdx i }

/-- The device with a partition. -/
def deviceOf (devices : List Json) (uuid : String) : Option Json :=
  devices.find? fun d => (d.toObject.get "partitions").toArray.any fun p =>
    (p.toObject.get "uuid").toString = uuid

/-- `editJob` goes on when the devices are there. The partition is bound last. -/
def editJobPrepared (s : JobEditor L) (i : Nat) (job : Json.Fields) : JobEditor L :=
  let wantUuid := job.get "partition_uuid"
  { s with
    job := job.set "partition_uuid" (.str "")
    editorDevname := match deviceOf s.devices wantUuid.toString with
      | some d => (d.toObject.get "devname").toString
      | none => ""
    editorOpen := true
    edits := []
    calls := s.calls.set i (.nextTick wantUuid) }

/-- `editJob` ends. -/
def editJobBound (s : JobEditor L) (i : Nat) (wantUuid : Json) : JobEditor L :=
  { s with job := s.job.set "partition_uuid" wantUuid, calls := s.calls.eraseIdx i }

/-- An input is bound to its field. -/
def edit (s : JobEditor L) (field : String) (value : Json) : JobEditor L :=
  { s with job := s.job.set field value, edits := s.edits ++ [(field, value)] }

def onDeviceChange (s : JobEditor L) (devname : String) : JobEditor L :=
  let d := s.devices.find? fun d => (d.toObject.get "devname").toString = devname
  let label := match d with
    | some d => trimText ((d.toObject.get "vendor").toString ++ " " ++
        (d.toObject.get "model").toString ++ " (" ++ (d.toObject.get "devname").toString ++ ")")
    | none => ""
  ({ s with editorDevname := devname }.edit "partition_uuid" (.str "")).edit "device" (.str label)

def saveJob (s : JobEditor L) : JobEditor L :=
  if (s.text "name").isEmpty then s
  else
    let route : Route := if s.editorNew then .postJob
      else .putJob (if s.editorOrigName.isEmpty then s.text "name" else s.editorOrigName)
    let req : Request := { cookie := s.cookie, csrfToken := s.csrf, body := some (.obj s.job) }
    { s with busy := true, calls := s.calls ++ [.saveJob route req s.edits none] }

def saveJobDone (s : JobEditor L) (i : Nat) (r : Response) : JobEditor L :=
  { s with
    editorOpen := if r.status = .ok then false else s.editorOpen
    busy := false
    calls := s.calls.eraseIdx i }

/-- The daemon serves a request. -/
def serve (s : JobEditor L) (i : Nat) (c : Call) (answered : Response → JobCall) : JobEditor L :=
  let e := .main (.request c)
  let s' := { s with daemon := (Process.machine L).next s.daemon e }
  match (Process.machine L).out s.daemon e with
  | some (_, r) => { s' with calls := s.calls.set i (answered r) }
  | none => s'

/-- One event. The inputs and buttons of the editor are there while it is open, the save
button while the page is not busy. -/
def step (s : JobEditor L) : JobEvent → JobEditor L
  | .newJob => s.newJob
  | .editJob name => s.editJob name
  | .edit field value => if s.editorOpen then s.edit field value else s
  | .onDeviceChange devname => if s.editorOpen then s.onDeviceChange devname else s
  | .saveJob => if s.editorOpen && !s.busy then s.saveJob else s
  | .cancel => { s with editorOpen := false }
  | .devices list => { s with devices := list }
  | .serve i m =>
    match s.calls[i]? with
    | some (.editJob name req none) =>
      s.serve i ⟨.getJob name, req, m⟩ fun r => .editJob name req (some r)
    | some (.saveJob route req edits none) =>
      s.serve i ⟨route, req, m⟩ fun r => .saveJob route req edits (some r)
    | _ => s
  | .answer i =>
    match s.calls[i]? with
    | some (.editJob name _ (some r)) => s.editJobLoaded i name r
    | some (.saveJob _ _ _ (some r)) => s.saveJobDone i r
    | _ => s
  | .fail i =>
    match s.calls[i]? with
    | some (.editJob _ _ _) => { s with calls := s.calls.eraseIdx i }
    | some (.saveJob _ _ _ _) => { s with busy := false, calls := s.calls.eraseIdx i }
    | _ => s
  | .prepared i =>
    match s.calls[i]? with
    | some (.devices job) => s.editJobPrepared i job
    | _ => s
  | .tick i =>
    match s.calls[i]? with
    | some (.nextTick wantUuid) => s.editJobBound i wantUuid
    | _ => s
  | .elsewhere e => { s with daemon := (Process.machine L).next s.daemon e }

/-- The editor as a machine. -/
def machine (L : Library) : Machine (JobEditor L) JobEvent Unit where
  step s e := (step s e, ())

/-- A page that was just loaded. -/
def start (daemon : Process L) (cookie csrf : String) : JobEditor L := { daemon, cookie, csrf }

end JobEditor

end TiBackup
