import TiBackup.Jobs.Identity
import TiBackup.Model.WsHub

/-!
# TiBackup.Model.Process

The whole process: the main thread, which serves requests and handshakes of web sockets
and runs the timers and the disk watcher, one after another, and the thread pool, on
which `QtConcurrent::run` puts the work that blocks on the network.

A handler that leaves work behind has returned before the work is done, and any
number of other events may come in between. The answer of the request is what the work
ends in. A new process has nothing on its thread pool.
-/

namespace TiBackup

open Lib Lib.Machine

/-- Work on the thread pool, and the request that left it there. -/
structure Task where
  call : Call
  work : Work

/-- The process: the main thread, and what is on the thread pool. -/
structure Process (L : Library) where
  main : DiskMain L
  pool : List Task

variable {L : Library}

namespace Process

/-- What can happen in the process. -/
inductive Happening
  /-- Something happens on the main thread. -/
  | main (e : Event)
  /-- The session of a web socket is validated: its handshake has this Cookie header. -/
  | handshake (cookie : Bytes) (now : Int)
  /-- A worker is done with one of the tasks. -/
  | done (i : Nat)

/-- The state that the handlers see. -/
def state (p : Process L) : State L := p.main.state

/-- What a reply leaves on the thread pool. -/
def tasks (c : Call) : Reply → List Task
  | .now _ => []
  | .later w => [⟨c, w⟩]

/-- The response a reply is, if it is ready. -/
def ready (c : Call) : Reply → Option (Call × Response)
  | .now r => some (c, r)
  | .later _ => none

/-- The process as a machine. The output is the request that is answered, and the
answer. -/
def machine (L : Library) : Machine (Process L) Happening (Option (Call × Response)) where
  step p
    | .main (.request c) =>
      let r := Api.serve c p.state
      ({ main := { p.main with state := r.1 }, pool := p.pool ++ tasks c r.2 }, ready c r.2)
    | .main (.restart tls nowMs) =>
      ({ main := (DiskMain.restart tls nowMs p.main).1, pool := [] }, none)
    | .main e => ({ p with main := (DiskMain.machine L).next p.main e }, none)
    | .handshake cookie now =>
      let v := p.state.sessions.validate now (wsCookieTokenFromHeader cookie)
      ({ p with main := { p.main with state := { p.state with sessions := v.1 } } }, none)
    | .done i =>
      match p.pool[i]? with
      | none => (p, none)
      | some t =>
        let r := Api.runWork t.work p.state
        ({ main := { p.main with state := r.1 }, pool := p.pool.eraseIdx i }, some (t.call, r.2))

section

variable (p : Process L)

@[simp] theorem state_request (c : Call) :
    ((machine L).next p (.main (.request c))).state = (Api.serve c p.state).1 := rfl

@[simp] theorem pool_request (c : Call) :
    ((machine L).next p (.main (.request c))).pool =
      p.pool ++ tasks c (Api.serve c p.state).2 := rfl

@[simp] theorem state_handshake (cookie : Bytes) (now : Int) :
    ((machine L).next p (.handshake cookie now)).state = { p.state with
      sessions := (p.state.sessions.validate now (wsCookieTokenFromHeader cookie)).1 } := rfl

theorem next_done {i : Nat} {t : Task} (h : p.pool[i]? = some t) :
    (machine L).next p (.done i) =
      { main := { p.main with state := (Api.runWork t.work p.state).1 },
        pool := p.pool.eraseIdx i } := by
  simp only [next, machine, h]

theorem next_done_of_none {i : Nat} (h : p.pool[i]? = none) :
    (machine L).next p (.done i) = p := by
  simp only [next, machine, h]

theorem out_done {i : Nat} {t : Task} (h : p.pool[i]? = some t) :
    (machine L).out p (.done i) = some (t.call, (Api.runWork t.work p.state).2) := by
  simp only [out, machine, h]

theorem out_done_of_none {i : Nat} (h : p.pool[i]? = none) :
    (machine L).out p (.done i) = none := by
  simp only [out, machine, h]

end

/-- A process that was just started, with nothing set up yet. -/
def reference : Process Reference.library where
  main := { state := DiskMain.restarted false Reference.initial, schedulerState := ∅ }
  pool := []

/-- The first-run setup of its password. -/
def setupCall : Call where
  route := .setup
  req := { body := some (.obj [("password", .str "correct horse")]) }
  moment := Reference.moment ""

end Process

end TiBackup
