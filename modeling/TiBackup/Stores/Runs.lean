import TiBackup.Model.Process
import TiBackup.Stores.Frame

/-!
# TiBackup.Stores.Runs

**What of the state an event of the process can change.** A request changes the parts
its route writes (`Api.handle_frame`); workers change what an SSH command changes; the
timer, the disks and a restart change the backups that are running and what a new process
begins with. Everything else is as it was (`same_next`).
-/

namespace TiBackup

open Lib Lib.Machine

variable {L : Library}

theorem Starts.part {st st' : State L} {names : List String} (h : Starts st st' names) {q : Part}
    (hq : q ≠ .manager) : q.Same st st' := by
  rw [h.others]
  cases q with
  | manager => exact absurd rfl hq
  | flags => exact ⟨rfl, rfl⟩
  | _ => rfl

namespace Api

/-- What a worker may change. -/
theorem runWork_keeps {q : Part} (hssh : q ≠ .ssh) (hhost : q ≠ .host) (w : Work) (st : State L) :
    q.Same st (runWork w st).1 := by
  cases w with
  | sshTest srv uuid =>
    simp only [runWork, sshTestDone]
    split
    · exact Part.same_with_ssh st hssh _
    · exact .refl q st
  | sshMkdir srv full => exact Part.same_with_host st hhost _
  | _ => exact .refl q st

end Api

namespace Process

/-- May an event change this part? -/
def writes : Happening → Part → Bool
  | .main (.request c), q => c.route.writes q
  | .main (.tick _), q | .main (.diskAdded _), q | .main (.backupEnded _ _), q => q = .manager
  | .main (.restart _ _), q => q = .manager || q = .flags
  | .handshake _ _, _ => false
  | .done _, q => q = .ssh || q = .host

/-- **The frame of an event.** -/
theorem same_next {e : Happening} {q : Part} (h : writes e q = false) (p : Process L) :
    q.Same p.state ((machine L).next p e).state := by
  cases e with
  | main e =>
    cases e with
    | request c => exact Api.handle_frame h c.req c.moment p.state
    | tick nowMs => exact (DiskMain.onTaskCheck_starts nowMs p.main).part (of_decide_eq_false h)
    | diskAdded disk => exact (DiskMain.onDiskAdded_starts disk p.state).part (of_decide_eq_false h)
    | backupEnded name status =>
      have hq := of_decide_eq_false h
      cases q with
      | manager => exact absurd rfl hq
      | flags => exact ⟨rfl, rfl⟩
      | _ => rfl
    | restart tls nowMs =>
      simp only [writes, Bool.or_eq_false_iff, decide_eq_false_iff_not] at h
      have hrestarted : q.Same p.state (DiskMain.restarted tls p.state) := by
        cases q with
        | manager => exact absurd rfl h.1
        | flags => exact absurd rfl h.2
        | _ => rfl
      exact hrestarted.trans ((DiskMain.onTaskCheck_starts nowMs
        { p.main with state := DiskMain.restarted tls p.state }).part h.1)
  | handshake cookie now => exact (State.sameButSessions_with p.state _).part q
  | done i =>
    simp only [writes, Bool.or_eq_false_iff, decide_eq_false_iff_not] at h
    cases htask : p.pool[i]? with
    | none =>
      rw [next_done_of_none p htask]
      exact .refl q p.state
    | some t =>
      rw [next_done p htask]
      exact Api.runWork_keeps h.1 h.2 t.work p.state

end Process

end TiBackup
