import TiBackup.Lib.Replica
import TiBackup.Model.Process
import TiBackup.Model.RunViewer

/-!
# TiBackup.Model.Dashboard

The dashboard of the page: `loadDashboard` and the part of `onLiveMessage` that is about the
status of a job, with the daemon that answers and `WsHub`, which broadcasts every change of
a status.

`loadDashboard` asks for `/api/health` and `/api/jobs` and goes on when both are answered.
The daemon lists the jobs at some time in between, and the status messages that are sent
meanwhile may arrive before or after that. The messages of one web socket arrive in the order
they were sent, and those that are under way are lost when it is closed.

**The signal.** `backupManager::statusChanged` is part of a library. It is relied on to
announce every change of a status, in the order of the changes (`StatusSignals`). A restart
of the daemon announces nothing, but it ends all connections.

Beside the state a record is kept of how many messages were broadcast and how many of them
were handled or lost. It decides nothing.
-/

namespace TiBackup

open Lib Lib.Machine

variable {L : Library}

namespace Process

/-- The status of a job, as the page shows it. -/
def status (p : Process L) (name : String) : String := Api.jobStatus p.state name

/-- The daemon is started again. -/
def isRestart : Happening → Bool
  | .main (.restart _ _) => true
  | _ => false

end Process

/-- `backupManager::statusChanged`: the names and statuses it is emitted with while an event
is handled. -/
structure StatusSignals (L : Library) where
  emitted : Process L → Process.Happening → List (String × BackupStatus)
  announces : ∀ p e, Process.isRestart e = false →
    Replica.Announces (Process.status p) (Process.status ((Process.machine L).next p e))
      ((emitted p e).map fun n => (n.1, statusString n.2))

/-- A call of `loadDashboard` that waits for its answers. -/
structure DashboardLoad where
  /-- The jobs with their statuses, when they were listed, and the number of messages that
  had been broadcast by then. -/
  listing : Option (List (String × String) × Nat) := none

/-- The dashboard, what is under way, and the daemon. -/
structure Dashboard (L : Library) where
  process : Process L
  /-- The web socket of the page is one of the hub's clients. -/
  connected : Bool := false
  jobs : List (String × String) := []
  loads : List DashboardLoad := []
  /-- The status messages under way to the page. -/
  pending : List (String × String) := []
  /-- Record: the messages that were broadcast. -/
  sent : Nat := 0
  /-- Record: those of them that cannot arrive any more. -/
  handled : Nat := 0

/-- What can happen. -/
inductive DashboardEvent
  /-- Something happens in the daemon. -/
  | daemon (e : Process.Happening)
  | loadDashboard
  /-- The daemon serves the request for the jobs of a load. -/
  | list (i : Nat) (req : Request) (m : Moment)
  /-- Both answers to a load have arrived. -/
  | loaded (i : Nat)
  /-- One of its requests fails. -/
  | failed (i : Nat)
  /-- The hub takes a web socket of the page over. -/
  | accepted
  /-- It is closed. -/
  | closed
  /-- The next message arrives. -/
  | message

/-- A job in the answer to `/api/jobs`. -/
def listedJob (j : Json) : String × String :=
  ((j.toObject.get "name").toString, (j.toObject.get "status").toString)

namespace Dashboard

/-- Nothing that was broadcast is under way any more. -/
def disconnect (s : Dashboard L) : Dashboard L :=
  { s with connected := false, pending := [], handled := s.sent }

/-- The daemon handles an event, and the hub broadcasts what the manager signals. -/
def happens (signals : StatusSignals L) (s : Dashboard L) (e : Process.Happening) : Dashboard L :=
  let process := (Process.machine L).next s.process e
  if Process.isRestart e then { s.disconnect with process, loads := [] }
  else
    let messages := (signals.emitted s.process e).map fun n => (n.1, statusString n.2)
    let sent := s.sent + messages.length
    if s.connected then { s with process, sent, pending := s.pending ++ messages }
    else { s with process, sent, handled := sent }

/-- `api.get("/api/jobs")` is served for one of the loads. -/
def list (signals : StatusSignals L) (s : Dashboard L) (i : Nat) (req : Request) (m : Moment) :
    Dashboard L :=
  let e := .main (.request ⟨.getJobs, req, m⟩)
  let s' := s.happens signals e
  match (Process.machine L).out s.process e with
  | some (_, r) =>
    if r.status = .ok then
      { s' with loads := s'.loads.set i { listing := some (r.body.toArray.map listedJob, s'.sent) } }
    else { s' with loads := s'.loads.eraseIdx i }
  | none => s'

def step (signals : StatusSignals L) (s : Dashboard L) : DashboardEvent → Dashboard L
  | .daemon e => s.happens signals e
  | .loadDashboard => { s with loads := s.loads ++ [{}] }
  | .list i req m =>
    match s.loads[i]? with
    | some { listing := none } => s.list signals i req m
    | _ => s
  | .loaded i =>
    match s.loads[i]? with
    | some { listing := some (jobs, _) } => { s with jobs, loads := s.loads.eraseIdx i }
    | _ => s
  | .failed i => { s with loads := s.loads.eraseIdx i }
  | .accepted => { s.disconnect with connected := true }
  | .closed => s.disconnect
  | .message =>
    match s.pending with
    | [] => s
    | m :: pending =>
      { s with jobs := RunViewer.setStatus m.1 m.2 s.jobs, pending, handled := s.handled + 1 }

/-- The dashboard as a machine. -/
def machine (signals : StatusSignals L) : Machine (Dashboard L) DashboardEvent Unit where
  step s e := (step signals s e, ())

/-- A page that was just loaded. -/
def start (process : Process L) : Dashboard L := { process }

end Dashboard

end TiBackup
