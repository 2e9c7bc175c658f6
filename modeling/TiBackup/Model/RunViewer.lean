import TiBackup.Logs.Reads
import TiBackup.Model.WsHub

/-!
# TiBackup.Model.RunViewer

The run-log viewer of `var/www/js/app.js`: `openRun`, `tickRunTail`, `openRsyncRun` and
`loadFullLog` each send a request and go on when it is answered or fails, `onLiveMessage`
polls once more when the job of a live log stops.

The fields and functions have the names of the source; what an `async` function does
after its `await` is a function of its own, named `…Done`, which gets the answer or
nothing. The page, the requests in flight, the log files and the messages on the live
channel make up one state (`RunViewer`), which any event may change at any time.

Beside the state a record is kept of what is shown: which parts of which file the text
was read from. It decides nothing.
-/

namespace TiBackup

open Lib Lib.Machine

/-- A log file by its address. -/
inductive LogRef
  | run (file : String)
  | rsync (job file : String)
  deriving Repr, DecidableEq

/-- Is it a run log? -/
def LogRef.isRun : LogRef → Bool
  | .run _ => true
  | .rsync _ _ => false

/-- Which kind of log the viewer shows. -/
inductive RunKind
  | none
  | run
  | rsync
  deriving Repr, DecidableEq

/-- The function that waits for an answer. -/
inductive Origin
  | openRun (live : Bool)
  | tickRunTail
  | openRsyncRun
  | loadFullLog
  deriving Repr, DecidableEq

/-- A request in flight: on its way, with the handler, or answered. -/
structure LogRequest where
  id : Nat
  origin : Origin
  target : LogRef
  offset : Option Nat
  full : Bool
  read : Option LogRead := none
  answer : Option LogAnswer := none
  /-- Record: from where to where the file was read. -/
  span : Nat × Nat := (0, 0)

/-- The fields that say what is shown, the requests in flight, and the log files. -/
structure ShownLog where
  runFile : String := ""
  runOffset : Nat := 0
  runText : String := ""
  runTruncated : Bool := false
  runKind : RunKind := .none
  runJob : String := ""
  requests : List LogRequest := []
  nextRequest : Nat := 0
  files : LogRef → Option Bytes
  /-- Record: the request of the last open action. -/
  lastOpen : Option Nat := none
  /-- Record: has the last open action been answered? -/
  settled : Bool := false
  /-- Record: the parts of the file the text was read from. -/
  spans : List (Nat × Nat) := []

/-- The viewer, with everything it talks to. -/
structure RunViewer extends ShownLog where
  runOpen : Bool := false
  runLive : Bool := false
  runName : String := ""
  runTimer : Option Nat := none
  runTailBusy : Bool := false
  runFullLoading : Bool := false
  /-- Names and statuses of the jobs. -/
  jobs : List (String × String) := []
  /-- Intervals that are set. -/
  intervals : List Nat := []
  nextInterval : Nat := 1
  /-- Messages on their way, the oldest first. -/
  messages : List (String × String) := []
  /-- Record: was a final status reported of the job whose log is open? -/
  runOver : Bool := false

/-- What can happen. -/
inductive ViewerEvent
  | openRun (file name : String) (live : Bool)
  | openRsyncRun (job file : String)
  | loadFullLog
  | closeRun
  /-- An interval fires. -/
  | interval (id : Nat)
  /-- The job list is loaded. -/
  | loadJobs (jobs : List (String × String))
  /-- The daemon reports a status. -/
  | statusChanged (name : String) (s : BackupStatus)
  /-- The next message arrives. -/
  | message
  /-- A log grows. -/
  | append (target : LogRef) (chunk : Bytes)
  /-- The handler of a request does one operation. -/
  | handle (id : Nat)
  /-- An answer arrives. -/
  | answer (id : Nat)
  /-- A request fails. -/
  | fail (id : Nat)

namespace ShownLog

/-- The log the viewer is on. -/
def current (s : ShownLog) : LogRef :=
  match s.runKind with
  | .rsync => .rsync s.runJob s.runFile
  | _ => .run s.runFile

/-- What is in a file; nothing, if it is not there. -/
def content (s : ShownLog) (target : LogRef) : Bytes := (s.files target).getD []

/-- `api.get`. -/
def send (s : ShownLog) (origin : Origin) (target : LogRef) (offset : Option Nat) (full : Bool) :
    ShownLog :=
  { s with
    requests := s.requests ++ [{ id := s.nextRequest, origin, target, offset, full }]
    nextRequest := s.nextRequest + 1 }

/-- What `openRun` sets before it waits. -/
def beginRun (s : ShownLog) (file : String) : ShownLog :=
  { s with
    runKind := .run, runJob := "", runFile := file, runOffset := 0, runText := ""
    runTruncated := false
    lastOpen := some s.nextRequest, settled := false, spans := [] }

/-- What `openRsyncRun` sets before it waits. -/
def beginRsync (s : ShownLog) (job file : String) : ShownLog :=
  { s with
    runTruncated := false, runKind := .rsync, runJob := job, runFile := file
    lastOpen := some s.nextRequest, settled := false }

/-- What each function stores of an answer. -/
def store (s : ShownLog) (r : LogRequest) (a : LogAnswer) : ShownLog :=
  -- None of them looks at which log is open by now.
  match r.origin with
  | .openRun _ =>
    { s with
      runText := a.text, runOffset := a.offset.getD 0, runTruncated := a.truncated
      spans := [r.span] }
  | .tickRunTail =>
    { s with
      runText := s.runText ++ a.text, runOffset := a.offset.getD s.runOffset
      spans := s.spans ++ [r.span] }
  | .openRsyncRun => { s with runText := a.text, runTruncated := a.truncated, spans := [r.span] }
  | .loadFullLog =>
    { s with
      runText := a.text, runTruncated := a.truncated
      runOffset := if s.runKind = .run then a.offset.getD s.runOffset else s.runOffset
      spans := [r.span] }

/-- The request is over. -/
def forget (s : ShownLog) (id : Nat) : ShownLog :=
  { s with requests := s.requests.filter (·.id ≠ id) }

/-- An answer arrives. -/
def answered (s : ShownLog) (r : LogRequest) (a : LogAnswer) : ShownLog :=
  { (s.forget r.id).store r a with settled := s.settled || s.lastOpen = some r.id }

/-- A file grows. -/
def append (s : ShownLog) (target : LogRef) (chunk : Bytes) : ShownLog :=
  { s with files := fun t => if t = target then some (s.content target ++ chunk) else s.files t }

/-- One operation of a handler; a file that is not there cannot be opened. -/
def handled (file : Option Bytes) (r : LogRequest) : LogRequest :=
  match file, r.answer, r.read with
  | some _, none, none =>
    { r with read := some (.start
      { run := r.target.isRun, offset := r.offset.map Int.ofNat, full := r.full }) }
  | some f, none, some p =>
    match p.step f with
    | .answered a => { r with answer := some a, span := (p.readPos, f.length) }
    | p' => { r with read := some p' }
  | _, _, _ => r

/-- The handler of a request goes on. -/
def handle (s : ShownLog) (id : Nat) : ShownLog :=
  { s with requests := s.requests.map fun r => if r.id = id then handled (s.files r.target) r else r }

def find (s : ShownLog) (id : Nat) : Option LogRequest := s.requests.find? (·.id = id)

end ShownLog

namespace RunViewer

def isRunning (s : RunViewer) (name : String) : Bool :=
  s.jobs.any fun j => j.1 = name && j.2 = "running"

def stopRunTail (s : RunViewer) : RunViewer :=
  match s.runTimer with
  | some t => { s with intervals := s.intervals.filter (· ≠ t), runTimer := none, runLive := false }
  | none => { s with runLive := false }

def openRun (s : RunViewer) (file name : String) (live : Bool) : RunViewer :=
  let s := s.stopRunTail
  { s with
    toShownLog := (s.beginRun file).send (.openRun live) (.run file) none false
    runName := name
    runOver := s.messages.any fun m => m.1 = name && m.2 ≠ "running" }

/-- The rest of `openRun`, after the answer was stored. -/
def openRunDone (s : RunViewer) (live : Bool) : RunViewer :=
  -- The viewer opens after a failure, too.
  let s := { s with runOpen := true }
  if live then
    { s with
      runLive := true
      runTimer := some s.nextInterval
      intervals := s.intervals ++ [s.nextInterval]
      nextInterval := s.nextInterval + 1 }
  else { s with runLive := false }

def tickRunTail (s : RunViewer) : RunViewer :=
  -- A poll in flight stands for this one.
  if s.runTailBusy || s.runFile.isEmpty then s
  else
    { s with
      toShownLog := s.send .tickRunTail (.run s.runFile) (some s.runOffset) false
      runTailBusy := true }

/-- The rest of `tickRunTail`. -/
def tickRunTailDone (s : RunViewer) : RunViewer :=
  let s := { s with runTailBusy := false }
  if s.isRunning s.runName then s else s.stopRunTail

def closeRun (s : RunViewer) : RunViewer := { s.stopRunTail with runOpen := false }

def openRsyncRun (s : RunViewer) (job file : String) : RunViewer :=
  let s := s.stopRunTail
  { s with
    toShownLog := (s.beginRsync job file).send .openRsyncRun (.rsync job file) none false
    runLive := false
    runName := "" }

def loadFullLog (s : RunViewer) : RunViewer :=
  { s with
    toShownLog := s.send .loadFullLog s.current none true
    runFullLoading := true }

/-- What a function does at its end, answered or not. -/
def done (s : RunViewer) : Origin → RunViewer
  | .openRun live => s.openRunDone live
  | .tickRunTail => s.tickRunTailDone
  | .openRsyncRun => { s with runOpen := true }
  | .loadFullLog => { s with runFullLoading := false }

/-- The status in the first entry of that name. -/
def setStatus (name status : String) : List (String × String) → List (String × String)
  | [] => []
  | j :: jobs => if j.1 = name then (j.1, status) :: jobs else j :: setStatus name status jobs

/-- `onLiveMessage`, of a job status. -/
def onLiveMessage (s : RunViewer) (name status : String) : RunViewer :=
  let s := { s with jobs := setStatus name status s.jobs }
  -- The final poll; what comes after its `await` stops the tail.
  if s.runLive && name = s.runName && status ≠ "running" then s.tickRunTail else s

def step (s : RunViewer) : ViewerEvent → RunViewer
  | .openRun file name live => s.openRun file name live
  | .openRsyncRun job file => s.openRsyncRun job file
  | .loadFullLog => s.loadFullLog
  | .closeRun => s.closeRun
  | .interval id => if s.intervals.contains id then s.tickRunTail else s
  | .loadJobs jobs => { s with jobs := jobs }
  | .statusChanged name status =>
    { s with
      messages := s.messages ++ [(name, statusString status)]
      runOver := s.runOver || name = s.runName && status ≠ .running }
  | .message =>
    match s.messages with
    | [] => s
    | m :: ms => { s with messages := ms }.onLiveMessage m.1 m.2
  | .append target chunk => { s with toShownLog := s.toShownLog.append target chunk }
  | .handle id => { s with toShownLog := s.toShownLog.handle id }
  | .answer id =>
    match s.find id with
    | some r =>
      match r.answer with
      | some a => { s with toShownLog := s.toShownLog.answered r a }.done r.origin
      | none => s
    | none => s
  | .fail id =>
    match s.find id with
    | some r => { s with toShownLog := s.toShownLog.forget id }.done r.origin
    | none => s

def machine : Machine RunViewer ViewerEvent Unit where
  step s e := (step s e, ())

/-- A page that was just loaded. -/
def start (jobs : List (String × String)) (files : LogRef → Option Bytes) : RunViewer where
  jobs := jobs
  files := files

end RunViewer

end TiBackup
