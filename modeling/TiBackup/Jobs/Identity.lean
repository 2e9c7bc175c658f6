import TiBackup.Jobs.TaskCheck
import TiBackup.Lib.Machine
import TiBackup.Model.Reference
import TiBackup.Stores.Frame
import Mathlib.Logic.Function.Basic

/-!
# TiBackup.Jobs.Identity

**A job is not its name.** The stored job, the registration of its backup and the
record of its last run are all filed under a name, and PUT can change the name. To say
what happens to one job over a run, the daemon is watched from outside: `Traced` adds
to it who is who (`owner`), whose backup is registered under a name (`startedFor`) and
what the scheduler has launched. None of this is read by the daemon (`daemon_run`).

A request is one of four things to a watcher: it leaves the jobs alone, or a job is
created, put or deleted (`RequestStep`).
-/

namespace TiBackup

open Lib Lib.Machine

variable {L : Library}

/-- What can happen to the daemon. -/
inductive Event
  /-- The main thread serves a request. -/
  | request (c : Call)
  /-- The timer fires. -/
  | tick (nowMs : Int)
  /-- The daemon is started again. -/
  | restart (tls : Bool) (nowMs : Int)
  | diskAdded (disk : DeviceDisk)
  /-- A running backup is over. -/
  | backupEnded (name : String) (status : { s : BackupStatus // s ≠ .running })

/-- The daemon under all that can happen to it. -/
def DiskMain.machine (L : Library) : Machine (DiskMain L) Event Unit where
  step d
    | .request c => ({ d with state := (Api.serve c d.state).1 }, ())
    | .tick nowMs => ((DiskMain.onTaskCheck nowMs d).1, ())
    | .restart tls nowMs => ((DiskMain.restart tls nowMs d).1, ())
    | .diskAdded disk => ({ d with state := (DiskMain.onDiskAdded disk d.state).1 }, ())
    | .backupEnded name status =>
      ({ d with state := { d.state with
        manager := L.manager.backupEnded d.state.manager name status.1 } }, ())

/-- A backup launched by the scheduler: for which job, stored how, when, and with which
last run on record. -/
structure Launch where
  job : Option Nat
  record : TiBackupJob
  nowMs : Int
  lastRun : Int

/-- The launch was due to this slot. -/
def Launch.Covers (S : TiBackupScheduler) (l : Launch) (slot : Int) : Prop :=
  S.isSlot l.record slot ∧ 1000 * slot ≤ l.nowMs ∧ l.nowMs ≤ 1000 * (slot + S.graceSecs) ∧
    l.lastRun < slot

/-- The daemon, watched. -/
structure Traced (L : Library) where
  daemon : DiskMain L
  /-- Which job is stored under a name. -/
  owner : String → Option Nat
  nextId : Nat
  /-- For which job the backup registered under a name was started. -/
  startedFor : String → Option Nat
  launches : List Launch
  /-- The time of the last check of the tasks. -/
  clock : Int

namespace Traced

/-- A job is stored under the name. -/
def stored (t : Traced L) (name : String) : Option TiBackupJob :=
  Api.getJobByName t.daemon.state name

def status (t : Traced L) (name : String) : BackupStatus :=
  L.manager.getBackupStatus t.daemon.state.manager name

/-- The last run on record for a name. -/
def lastRun (t : Traced L) (name : String) : Int := DiskMain.lastRun t.daemon.schedulerState name

/-- A daemon we begin to watch: jobs are numbered as they are listed, and a backup that
is running was started for the job of that name. -/
def initial (d : DiskMain L) (clock : Int) : Traced L where
  daemon := d
  owner name := if (Api.getJobByName d.state name).isSome
    then some ((L.jobs.index d.state.jobs).idxOf name) else none
  nextId := (L.jobs.index d.state.jobs).length
  startedFor name := if (Api.getJobByName d.state name).isSome
    then some ((L.jobs.index d.state.jobs).idxOf name) else none
  launches := []
  clock := clock

/-- Who is who after a request that was answered with ok. -/
def ownersAfter (c : Call) (t : Traced L) : (String → Option Nat) × Nat :=
  match c.route with
  | .postJob => (Function.update t.owner (Api.bodyJob c.req).name (some t.nextId), t.nextId + 1)
  | .putJob name =>
    (Function.update (Function.update t.owner name none)
      (Api.newJobName name (Api.bodyJob c.req)) (t.owner name), t.nextId)
  | .deleteJob name => (Function.update t.owner name none, t.nextId)
  | _ => (t.owner, t.nextId)

/-- The daemon went over to the state `st`: a backup that is running now and was not
before was started for the job that has the name. -/
def moved (t : Traced L) (st : State L) : Traced L :=
  { t with
    daemon := { t.daemon with state := st }
    startedFor := fun n =>
      if t.status n ≠ .running ∧ L.manager.getBackupStatus st.manager n = .running then t.owner n
      else t.startedFor n }

/-- The tasks were checked: every call of `startBackup` is a launch. -/
def checked (nowMs : Int) (t : Traced L) : Traced L :=
  let r := DiskMain.onTaskCheck nowMs t.daemon
  { t.moved r.1.state with
    daemon := r.1
    launches := t.launches ++ r.2.map fun job =>
      ⟨t.owner job.name, job, nowMs, t.lastRun job.name⟩
    clock := nowMs }

/-- A request was served. -/
def served (c : Call) (t : Traced L) : Traced L :=
  let r := Api.serve c t.daemon.state
  let owners := if Api.replyStatus r.2 = some .ok then ownersAfter c t else (t.owner, t.nextId)
  { t.moved r.1 with owner := owners.1, nextId := owners.2 }

end Traced

/-- The daemon under all that can happen to it, watched. -/
def watch (L : Library) : Machine (Traced L) Event Unit where
  step t
    | .request c => (t.served c, ())
    | .tick nowMs => (t.checked nowMs, ())
    | .restart tls nowMs =>
      ((t.moved (DiskMain.restarted tls t.daemon.state)).checked nowMs, ())
    | .diskAdded disk => (t.moved (DiskMain.onDiskAdded disk t.daemon.state).1, ())
    | .backupEnded name status =>
      (t.moved { t.daemon.state with
        manager := L.manager.backupEnded t.daemon.state.manager name status.1 }, ())

namespace Traced

/-- **Watching changes nothing**: the daemon goes through the states it goes through
when nobody watches. -/
theorem daemon_run (t : Traced L) (es : List Event) :
    ((watch L).run t es).daemon = (DiskMain.machine L).run t.daemon es := by
  refine (simulation (R := fun (t : Traced L) d => t.daemon = d) (fun e _ t d ht => ⟨?_, rfl⟩)
    (t := t.daemon) rfl).1
  subst ht
  cases e <;> rfl

/-- The request gives the job stored under `name` the name `new`. -/
def Renames (t : Traced L) (c : Call) (name new : String) : Prop :=
  c.route = .putJob name ∧ Api.Answered (Api.serve c t.daemon.state) ∧
    new = Api.newJobName name (Api.bodyJob c.req) ∧ new ≠ name

/-! ### What a request does -/

/-- What a request is to a watcher. -/
inductive RequestStep (t t' : Traced L) (c : Call) : Prop
  /-- No job was touched; backups may have been started. -/
  | kept (names : List String) (howner : t'.owner = t.owner) (hid : t'.nextId = t.nextId)
      (hstored : t'.stored = t.stored)
      (hstatus : ∀ n, t'.status n = if n ∈ names then .running else t.status n)
  | created (name : String) (hfree : t.stored name = none)
      (howner : t'.owner = Function.update t.owner name (some t.nextId))
      (hid : t'.nextId = t.nextId + 1)
      (hstored : ∀ k, (t'.stored k).isSome = (decide (k = name) || (t.stored k).isSome))
      (hstatus : t'.status = t.status)
  | put (name new : String) (hroute : c.route = .putJob name)
      (hanswered : Api.Answered (Api.serve c t.daemon.state))
      (hnew : new = Api.newJobName name (Api.bodyJob c.req))
      (hput : Api.PutJob t.daemon.state t'.daemon.state name new (Api.bodyJob c.req))
      (howner : t'.owner = Function.update (Function.update t.owner name none) new (t.owner name))
      (hid : t'.nextId = t.nextId) (hstatus : t'.status = t.status)
  | deleted (name : String) (howner : t'.owner = Function.update t.owner name none)
      (hid : t'.nextId = t.nextId)
      (hstored : ∀ k, (t'.stored k).isSome = (!decide (k = name) && (t.stored k).isSome))
      (hstatus : t'.status = t.status)

/-- Only three routes change who is who. -/
theorem ownersAfter_of_not_writes {c : Call} (h : c.route.writes .jobs = false) (t : Traced L) :
    ownersAfter c t = (t.owner, t.nextId) := by
  obtain ⟨route, req, m⟩ := c
  cases route with
  | postJob | putJob | deleteJob => cases h
  | _ => rfl

theorem owner_served_of_not_answered {c : Call} {t : Traced L}
    (h : ¬Api.Answered (Api.serve c t.daemon.state)) :
    (t.served c).owner = t.owner ∧ (t.served c).nextId = t.nextId := by
  have hreply : Api.replyStatus (Api.serve c t.daemon.state).2 ≠ some .ok := h
  simp [served, moved, hreply]

theorem owner_served_of_answered {c : Call} {t : Traced L}
    (h : Api.Answered (Api.serve c t.daemon.state)) :
    (t.served c).owner = (ownersAfter c t).1 ∧ (t.served c).nextId = (ownersAfter c t).2 := by
  have hreply : Api.replyStatus (Api.serve c t.daemon.state).2 = some .ok := h
  simp [served, moved, hreply]

/-- A put that is answered with ok. -/
theorem served_put {c : Call} {t : Traced L} {name : String} (hroute : c.route = .putJob name)
    (hanswered : Api.Answered (Api.serve c t.daemon.state)) :
    Api.PutJob t.daemon.state (t.served c).daemon.state name
        (Api.newJobName name (Api.bodyJob c.req)) (Api.bodyJob c.req) ∧
      (t.served c).owner = Function.update (Function.update t.owner name none)
        (Api.newJobName name (Api.bodyJob c.req)) (t.owner name) ∧
      (t.served c).nextId = t.nextId := by
  obtain ⟨howner, hid⟩ := owner_served_of_answered hanswered
  obtain ⟨route, req, m⟩ := c
  cases hroute
  rcases Api.putJob_cases name req m t.daemon.state with ⟨-, -, -, hput⟩ | ⟨hno, -⟩
  · exact ⟨hput, howner, hid⟩
  · exact absurd hanswered hno

/-- A request that changes nothing but the sessions. -/
theorem requestStep_of_rejected {c : Call} {t : Traced L}
    (h : Api.Rejected t.daemon.state (Api.serve c t.daemon.state)) :
    RequestStep t (t.served c) c := by
  obtain ⟨hno, hsame⟩ := h
  obtain ⟨howner, hid⟩ := owner_served_of_not_answered hno
  have hjobs : (Api.serve c t.daemon.state).1.jobs = t.daemon.state.jobs := hsame.part .jobs
  have hmanager : (Api.serve c t.daemon.state).1.manager = t.daemon.state.manager :=
    hsame.part .manager
  refine .kept [] howner hid ?_ ?_
  · funext n
    simp only [stored, served, moved, Api.getJobByName, hjobs]
  · intro n
    simp [status, served, moved, hmanager]

/-- Only one route starts backups. -/
theorem status_served_of_not_writes {c : Call} (h : c.route.writes .manager = false)
    {t : Traced L} : (t.served c).status = t.status := by
  have hsame : (Api.serve c t.daemon.state).1.manager = t.daemon.state.manager :=
    Api.handle_frame h c.req c.moment t.daemon.state
  funext n
  simp only [status, served, moved, hsame]

/-- A manual start starts one backup, if it is allowed to. -/
theorem status_startJob (name : String) (req : Request) (m : Moment) (st : State L) :
    ∃ names : List String, ∀ n, L.manager.getBackupStatus (Api.startJob name req m st).1.manager n =
      if n ∈ names then .running else L.manager.getBackupStatus st.manager n := by
  rcases Api.guarded_cases st req m .now _ with ⟨-, hrun⟩ | ⟨e, -, hrun⟩
  · rw [Api.startJob, hrun]
    exact ⟨[name], (startBackup_starts (st.validated m.now req) name).status⟩
  · rw [Api.startJob, hrun]
    exact ⟨[], fun n => by simp [State.validated]⟩

/-- A route that does not write the jobs starts backups at most. -/
theorem requestStep_of_not_writes {c : Call} (h : c.route.writes .jobs = false) (t : Traced L) :
    RequestStep t (t.served c) c := by
  have hjobs : (Api.serve c t.daemon.state).1.jobs = t.daemon.state.jobs :=
    Api.handle_frame h c.req c.moment t.daemon.state
  have howners := ownersAfter_of_not_writes h t
  have hstarts : ∃ names : List String, ∀ n, (t.served c).status n =
      if n ∈ names then .running else t.status n := by
    by_cases hstart : c.route.writes .manager = false
    · have hsame : (t.served c).status = t.status := status_served_of_not_writes hstart
      exact ⟨[], fun n => by simp [hsame]⟩
    · obtain ⟨route, req, m⟩ := c
      cases route with
      | startJob name => exact status_startJob name req m t.daemon.state
      | _ => exact absurd rfl hstart
  obtain ⟨names, hstatus⟩ := hstarts
  refine .kept names ?_ ?_ ?_ hstatus
  · simp only [served, moved, howners, ite_self]
  · simp only [served, moved, howners, ite_self]
  · funext n
    simp only [stored, served, moved, Api.getJobByName, hjobs]

theorem requestStep_postJob (req : Request) (m : Moment) (t : Traced L) :
    RequestStep t (t.served ⟨.postJob, req, m⟩) ⟨.postJob, req, m⟩ := by
  rcases Api.postJob_cases req m t.daemon.state with ⟨⟨-, -, -, hfree⟩, hrun⟩ | ⟨-, hrejected⟩
  · have hanswered : Api.Answered (Api.serve ⟨.postJob, req, m⟩ t.daemon.state) := by
      rw [Api.serve, Api.handle, hrun]
      rfl
    obtain ⟨howner, hid⟩ := owner_served_of_answered hanswered
    refine .created (Api.bodyJob req).name hfree howner hid ?_ (status_served_of_not_writes rfl)
    intro k
    have hfind : (t.served ⟨.postJob, req, m⟩).stored k =
        if k = (Api.bodyJob req).name then some (Api.bodyJob req) else t.stored k := by
      show L.jobs.find (Api.postJob req m t.daemon.state).1.jobs k = _
      rw [hrun]
      exact L.jobs.find_save t.daemon.state.jobs (Api.bodyJob req) k
    rw [hfind]
    by_cases hk : k = (Api.bodyJob req).name
    · simp [hk]
    · simp [hk]
  · exact requestStep_of_rejected hrejected

theorem requestStep_deleteJob (name : String) (req : Request) (m : Moment) (t : Traced L) :
    RequestStep t (t.served ⟨.deleteJob name, req, m⟩) ⟨.deleteJob name, req, m⟩ := by
  rcases Api.deleteJob_cases name req m t.daemon.state with ⟨-, hrun⟩ | ⟨-, hrejected⟩
  · have hanswered : Api.Answered (Api.serve ⟨.deleteJob name, req, m⟩ t.daemon.state) := by
      rw [Api.serve, Api.handle, hrun]
      rfl
    obtain ⟨howner, hid⟩ := owner_served_of_answered hanswered
    refine .deleted name howner hid ?_ (status_served_of_not_writes rfl)
    intro k
    have hfind : (t.served ⟨.deleteJob name, req, m⟩).stored k =
        if k = name then none else t.stored k := by
      show L.jobs.find (Api.deleteJob name req m t.daemon.state).1.jobs k = _
      rw [hrun]
      exact L.jobs.find_remove t.daemon.state.jobs name k
    rw [hfind]
    by_cases hk : k = name
    · simp [hk]
    · simp [hk]
  · exact requestStep_of_rejected hrejected

/-- **A request is one of the four.** -/
theorem requestStep (c : Call) (t : Traced L) : RequestStep t (t.served c) c := by
  cases hwrites : c.route.writes .jobs with
  | false => exact requestStep_of_not_writes hwrites t
  | true =>
    obtain ⟨route, req, m⟩ := c
    cases route with
    | postJob => exact requestStep_postJob req m t
    | putJob name =>
      rcases Api.putJob_cases name req m t.daemon.state with ⟨hanswered, -⟩ | hrejected
      · obtain ⟨hput, howner, hid⟩ := served_put (c := ⟨.putJob name, req, m⟩) rfl hanswered
        exact .put name _ rfl hanswered rfl hput howner hid
          (status_served_of_not_writes rfl)
      · exact requestStep_of_rejected hrejected
    | deleteJob name => exact requestStep_deleteJob name req m t
    | _ => cases hwrites

/-! ### Who is who stays right -/

/-- Every stored job has its own number. -/
structure Tracked (t : Traced L) : Prop where
  stored : ∀ n, (t.owner n).isSome = (t.stored n).isSome
  injective : ∀ n n' i, t.owner n = some i → t.owner n' = some i → n = n'
  fresh : ∀ n i, t.owner n = some i → i < t.nextId

theorem Tracked.initial (d : DiskMain L) (clock : Int) : Tracked (Traced.initial d clock) where
  stored n := by
    simp only [Traced.initial, Traced.stored]
    split
    · next h => simp [h]
    · next h => simpa using h
  injective n n' i hn hn' := by
    simp only [Traced.initial, Option.ite_none_right_eq_some, Option.some.injEq] at hn hn'
    have hmem : n ∈ L.jobs.index d.state.jobs := L.jobs.mem_index.mpr hn.1
    exact (List.idxOf_inj hmem).mp (hn.2.trans hn'.2.symm)
  fresh n i hn := by
    simp only [Traced.initial, Option.ite_none_right_eq_some, Option.some.injEq] at hn
    rw [← hn.2]
    exact List.idxOf_lt_length_of_mem (L.jobs.mem_index.mpr hn.1)

/-- Where the job that has the name `n` after a put was before: under the old name if
it is the one that was put, and else where it is now. -/
theorem owner_put {owner : String → Option Nat} {name new n : String} {i : Nat}
    (h : Function.update (Function.update owner name none) new (owner name) n = some i) :
    n = new ∧ owner name = some i ∨ n ≠ new ∧ n ≠ name ∧ owner n = some i := by
  rw [Function.update_apply, Function.update_apply] at h
  split at h
  · next hn => exact .inl ⟨hn, h⟩
  · next hn =>
    split at h
    · cases h
    · next hn' => exact .inr ⟨hn, hn', h⟩

/-- Numbers and jobs stay together when both change under one name. -/
theorem Tracked.stored_update {t : Traced L} (h : Tracked t) {name : String} {number : Option Nat}
    {stored : String → Bool} (hname : stored name = number.isSome)
    (hother : ∀ n, n ≠ name → stored n = (t.stored n).isSome) (n : String) :
    (Function.update t.owner name number n).isSome = stored n := by
  by_cases hn : n = name
  · rw [hn, Function.update_self, hname]
  · rw [Function.update_of_ne hn, hother n hn, h.stored]

/-- A new job gets a number that is larger than all that are in use. -/
theorem Tracked.created {t t' : Traced L} (h : Tracked t) {name : String}
    (howner : t'.owner = Function.update t.owner name (some t.nextId))
    (hid : t'.nextId = t.nextId + 1)
    (hstored : ∀ k, (t'.stored k).isSome = (decide (k = name) || (t.stored k).isSome)) :
    Tracked t' := by
  refine ⟨?_, ?_, ?_⟩
  · rw [howner]
    exact h.stored_update (by simp [hstored]) fun n hn => by simp [hstored, hn]
  · intro n n' i hn hn'
    rw [howner, Function.update_apply] at hn hn'
    split at hn
    · split at hn'
      · next hn₁ hn₂ => rw [hn₁, hn₂]
      · have hlt := h.fresh n' i hn'
        obtain rfl := Option.some.inj hn
        omega
    · split at hn'
      · have hlt := h.fresh n i hn
        obtain rfl := Option.some.inj hn'
        omega
      · exact h.injective n n' i hn hn'
  · intro n i hn
    rw [howner, Function.update_apply] at hn
    rw [hid]
    split at hn
    · obtain rfl := Option.some.inj hn
      omega
    · have hlt := h.fresh n i hn
      omega

/-- A job keeps its number when it is put, also under another name. -/
theorem Tracked.put {t t' : Traced L} (h : Tracked t) {name new : String} {job : TiBackupJob}
    (hput : Api.PutJob t.daemon.state t'.daemon.state name new job)
    (howner : t'.owner = Function.update (Function.update t.owner name none) new (t.owner name))
    (hid : t'.nextId = t.nextId) : Tracked t' := by
  refine ⟨?_, ?_, ?_⟩
  · intro n
    have hfind : t'.stored n = _ := hput.find n
    rw [howner, hfind, Function.update_apply, Function.update_apply]
    split
    · rw [h.stored]
      exact hput.stored
    · split
      · rfl
      · exact h.stored n
  · intro n n' i hn hn'
    rw [howner] at hn hn'
    -- Two names of one job: both new, both from before, or one of each, which was two names before.
    rcases owner_put hn with ⟨rfl, hold⟩ | ⟨-, hname, hold⟩
    · rcases owner_put hn' with ⟨rfl, -⟩ | ⟨-, hname', hold'⟩
      · rfl
      · exact absurd (h.injective _ _ i hold' hold) hname'
    · rcases owner_put hn' with ⟨rfl, hold'⟩ | ⟨-, -, hold'⟩
      · exact absurd (h.injective _ _ i hold hold') hname
      · exact h.injective n n' i hold hold'
  · intro n i hn
    rw [howner] at hn
    rw [hid]
    rcases owner_put hn with ⟨-, hold⟩ | ⟨-, -, hold⟩
    · exact h.fresh name i hold
    · exact h.fresh n i hold

/-- The number of a job that is deleted is not used again. -/
theorem Tracked.deleted {t t' : Traced L} (h : Tracked t) {name : String}
    (howner : t'.owner = Function.update t.owner name none) (hid : t'.nextId = t.nextId)
    (hstored : ∀ k, (t'.stored k).isSome = (!decide (k = name) && (t.stored k).isSome)) :
    Tracked t' := by
  refine ⟨?_, ?_, ?_⟩
  · rw [howner]
    exact h.stored_update (by simp [hstored]) fun n hn => by simp [hstored, hn]
  · intro n n' i hn hn'
    rw [howner, Function.update_apply, Option.ite_none_left_eq_some] at hn hn'
    exact h.injective n n' i hn.2 hn'.2
  · intro n i hn
    rw [howner, Function.update_apply, Option.ite_none_left_eq_some] at hn
    rw [hid]
    exact h.fresh n i hn.2

theorem Tracked.served {t : Traced L} (h : Tracked t) (c : Call) : Tracked (t.served c) := by
  cases requestStep c t with
  | kept names howner hid hstored hstatus =>
    exact ⟨by rw [howner, hstored]; exact h.stored, by rw [howner]; exact h.injective,
      by rw [howner, hid]; exact h.fresh⟩
  | created name hfree howner hid hstored hstatus => exact h.created howner hid hstored
  | put name new hroute hanswered hnew hput howner hid hstatus => exact h.put hput howner hid
  | deleted name howner hid hstored hstatus => exact h.deleted howner hid hstored

theorem Tracked.moved {t : Traced L} (h : Tracked t) {st : State L}
    (hjobs : st.jobs = t.daemon.state.jobs) : Tracked (t.moved st) where
  stored n := by
    rw [Traced.stored, Traced.moved, Api.getJobByName, hjobs]
    exact h.stored n
  injective := h.injective
  fresh := h.fresh

theorem Tracked.checked {t : Traced L} (h : Tracked t) (nowMs : Int) :
    Tracked (t.checked nowMs) :=
  let hmoved := h.moved (DiskMain.onTaskCheck_starts nowMs t.daemon).jobs
  ⟨hmoved.stored, hmoved.injective, hmoved.fresh⟩

/-- Whatever happens, every stored job has its own number. -/
theorem Tracked.step {t : Traced L} (h : Tracked t) (e : Event) :
    Tracked ((watch L).next t e) := by
  cases e with
  | request c => exact h.served c
  | tick nowMs => exact h.checked nowMs
  | restart tls nowMs =>
    have hmoved : Tracked (t.moved (DiskMain.restarted tls t.daemon.state)) := h.moved rfl
    exact hmoved.checked nowMs
  | diskAdded disk => exact h.moved (DiskMain.onDiskAdded_starts disk t.daemon.state).jobs
  | backupEnded name status => exact h.moved rfl

/-! ### A daemon to watch -/

/-- A job that is due every day one minute after midnight. -/
def nightly (name : String) : TiBackupJob where
  name := name
  intervalType := .DAILY
  intervalTime := "00:01"

/-- A daemon with that job, before its first check. -/
def nightlyStart : Traced Reference.library :=
  initial ⟨Api.saveBackupJob Reference.initial (nightly "nightly"), ∅⟩ 0

end Traced

end TiBackup
