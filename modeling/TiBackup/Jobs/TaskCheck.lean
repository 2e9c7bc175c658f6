import TiBackup.Model.DiskMain

/-!
# TiBackup.Jobs.TaskCheck

**What a check of the tasks does, in one step.** `onTaskCheck` goes through the jobs one
after another, each time with the state file the earlier ones left behind. Jobs have
different names and so different keys: what happens to a job depends on the state
before the check alone (`dueJobs`), and the whole check records and launches the due
jobs (`onTaskCheck_eq`).

`Starts` is all that later proofs need to know about launching: some names are running
afterwards, the others have the status they had. A disk that is plugged in launches too,
whatever its partitions select (`onDiskAdded_eq`).
-/

namespace TiBackup

open Lib

variable {L : Library}

/-! ### Launching -/

/-- Backups of these names were started; nothing else happened. -/
structure Starts (st st' : State L) (names : List String) : Prop where
  others : st' = { st with manager := st'.manager }
  status : ∀ n, L.manager.getBackupStatus st'.manager n =
    if n ∈ names then .running else L.manager.getBackupStatus st.manager n

theorem Starts.refl (st : State L) : Starts st st [] where
  others := rfl
  status n := by simp

theorem Starts.jobs {st st' : State L} {names : List String} (h : Starts st st' names) :
    st'.jobs = st.jobs := by
  rw [h.others]

theorem Starts.trans {a b c : State L} {ns ms : List String} (h : Starts a b ns)
    (h' : Starts b c ms) : Starts a c (ns ++ ms) where
  others := by rw [h'.others, h.others]
  status n := by
    rw [h'.status, h.status]
    by_cases hms : n ∈ ms
    · simp [hms]
    · simp [hms]

theorem startBackup_starts (st : State L) (name : String) :
    Starts st (Api.startBackup st name).1 [name] where
  others := rfl
  status n := by
    show L.manager.getBackupStatus (L.manager.startBackup st.manager name).1 n = _
    by_cases hrunning : L.manager.getBackupStatus st.manager name = .running
    · -- The name is taken: nothing is started, and the name is running as before.
      rw [L.manager.startBackup_running hrunning]
      by_cases hn : n = name
      · simp [hn, hrunning]
      · simp [hn]
    · rw [(L.manager.startBackup_idle hrunning).2 n]
      simp

/-- Starting the backups of a list of jobs, one after another. -/
def startAll (jobs : List TiBackupJob) (st : State L) : State L :=
  jobs.foldl (fun st job => (Api.startBackup st job.name).1) st

/-- Each of them is one call. -/
theorem foldl_startBackup (jobs : List TiBackupJob) (st : State L) (calls : List TiBackupJob) :
    jobs.foldl DiskMain.startBackup (st, calls) = (startAll jobs st, calls ++ jobs) := by
  induction jobs generalizing st calls with
  | nil => rw [List.append_nil]; rfl
  | cons job jobs ih =>
    rw [List.foldl_cons, DiskMain.startBackup, ih, List.append_assoc]
    rfl

theorem startAll_starts (jobs : List TiBackupJob) (st : State L) :
    Starts st (startAll jobs st) (jobs.map TiBackupJob.name) := by
  induction jobs generalizing st with
  | nil => exact .refl st
  | cons job jobs ih => exact (startBackup_starts st job.name).trans (ih _)

namespace DiskMain

/-! ### A disk that is plugged in -/

/-- The jobs `onDiskAdded` starts, in the order in which it starts them. -/
def hotplugJobs (disk : DeviceDisk) (st : State L) : List TiBackupJob :=
  disk.partitions.flatMap fun part =>
    (L.jobs.jobsByUuid st.jobs part.uuid).filter TiBackupJob.startBackupOnHotplug

/-- A disk that is plugged in calls `startBackup` for these jobs. The store is read for each
partition again, but starting a backup leaves it alone. -/
theorem onDiskAdded_eq (disk : DeviceDisk) (st : State L) :
    onDiskAdded disk st = (startAll (hotplugJobs disk st) st, hotplugJobs disk st) := by
  have hinner : ∀ (jobs calls : List TiBackupJob) (st : State L),
      jobs.foldl (fun r job =>
        if job.startBackupOnHotplug = false then r else startBackup r job) (st, calls) =
      (startAll (jobs.filter TiBackupJob.startBackupOnHotplug) st,
        calls ++ jobs.filter TiBackupJob.startBackupOnHotplug) := by
    intro jobs calls st
    rw [← foldl_startBackup, List.foldl_filter]
    congr 1
    funext r job
    cases job.startBackupOnHotplug <;> rfl
  have houter : ∀ (parts : List DeviceDiskPartition) (calls : List TiBackupJob) (st : State L),
      parts.foldl (fun r part => (L.jobs.jobsByUuid r.1.jobs part.uuid).foldl (fun r job =>
        if job.startBackupOnHotplug = false then r else startBackup r job) r) (st, calls) =
      (startAll (parts.flatMap fun part => (L.jobs.jobsByUuid st.jobs part.uuid).filter
          TiBackupJob.startBackupOnHotplug) st,
        calls ++ parts.flatMap fun part => (L.jobs.jobsByUuid st.jobs part.uuid).filter
          TiBackupJob.startBackupOnHotplug) := by
    intro parts
    induction parts with
    | nil => exact fun calls st => by rw [List.flatMap_nil, List.append_nil]; rfl
    | cons part parts ih =>
      intro calls st
      rw [List.foldl_cons, hinner, ih, (startAll_starts _ st).jobs, List.flatMap_cons,
        List.append_assoc, startAll, startAll, startAll, List.foldl_append]
  exact (houter disk.partitions [] st).trans (by rw [List.nil_append]; rfl)

theorem onDiskAdded_starts (disk : DeviceDisk) (st : State L) :
    Starts st (onDiskAdded disk st).1 ((hotplugJobs disk st).map TiBackupJob.name) := by
  rw [onDiskAdded_eq]
  exact startAll_starts _ _

/-! ### The state file -/

theorem lastRunKey_inj {a b : String} (h : lastRunKey a = lastRunKey b) : a = b := by
  have hlist := congrArg String.toList h
  simp only [lastRunKey, String.toList_append] at hlist
  exact String.toList_injective (List.append_cancel_right hlist)

/-- Recording a run under a name. -/
def record (nowMs : Int) (s : StringMap Int) (job : TiBackupJob) : StringMap Int :=
  s.insert (lastRunKey job.name) (nowMs / 1000)

theorem lastRun_record (nowMs : Int) (s : StringMap Int) (job : TiBackupJob) (name : String) :
    lastRun (record nowMs s job) name = if name = job.name then nowMs / 1000 else lastRun s name := by
  rw [lastRun, record, StringMap.get_insert]
  by_cases hname : name = job.name
  · simp [hname]
  · have hkey : lastRunKey name ≠ lastRunKey job.name := fun h => hname (lastRunKey_inj h)
    simp [hname, hkey, lastRun]

theorem lastRun_foldl_record (nowMs : Int) (jobs : List TiBackupJob) (s : StringMap Int)
    (name : String) : lastRun (jobs.foldl (record nowMs) s) name =
      if name ∈ jobs.map TiBackupJob.name then nowMs / 1000 else lastRun s name := by
  induction jobs generalizing s with
  | nil => simp
  | cons job jobs ih =>
    rw [List.foldl_cons, ih, lastRun_record]
    by_cases hlater : name ∈ jobs.map TiBackupJob.name
    · simp [hlater]
    · simp [hlater]

/-! ### The check -/

/-- The check launches this job. -/
def due (nowMs : Int) (s : StringMap Int) (job : TiBackupJob) : Bool :=
  decide (job.intervalType ≠ .NONE) &&
    L.scheduler.shouldRun job nowMs (lastRun s job.name)

theorem checkJob_eq (nowMs : Int) (d : DiskMain L) (calls : List TiBackupJob) (job : TiBackupJob) :
    checkJob nowMs (d, calls) job =
      if due (L := L) nowMs d.schedulerState job then
        (⟨(Api.startBackup d.state job.name).1, record nowMs d.schedulerState job⟩, calls ++ [job])
      else (d, calls) := by
  rw [checkJob]
  by_cases hnone : job.intervalType = .NONE
  · simp [due, hnone]
  · simp [due, hnone, record, startBackup]

/-- The jobs a check launches, in listing order. -/
def dueJobs (nowMs : Int) (d : DiskMain L) : List TiBackupJob :=
  (Api.allJobs d.state).filter (due (L := L) nowMs d.schedulerState)

/-- Checking jobs of different names one after another launches those that are due
before the first of them is checked. -/
theorem foldl_checkJob (nowMs : Int) (jobs : List TiBackupJob)
    (hnames : (jobs.map TiBackupJob.name).Nodup) (d : DiskMain L) (calls : List TiBackupJob) :
    jobs.foldl (checkJob nowMs) (d, calls) =
      (⟨startAll (jobs.filter (due (L := L) nowMs d.schedulerState)) d.state,
        (jobs.filter (due (L := L) nowMs d.schedulerState)).foldl (record nowMs)
          d.schedulerState⟩,
        calls ++ jobs.filter (due (L := L) nowMs d.schedulerState)) := by
  induction jobs generalizing d calls with
  | nil => rw [List.filter_nil, List.append_nil]; rfl
  | cons job jobs ih =>
    rw [List.map_cons, List.nodup_cons] at hnames
    rw [List.foldl_cons, checkJob_eq]
    by_cases hdue : due (L := L) nowMs d.schedulerState job = true
    · -- The record of this job is not read by the checks of the others.
      have hsame : jobs.filter (due (L := L) nowMs (record nowMs d.schedulerState job)) =
          jobs.filter (due (L := L) nowMs d.schedulerState) := by
        refine List.filter_congr ?_
        intro other hother
        have hne : other.name ≠ job.name := by
          rintro heq
          exact hnames.1 (heq ▸ List.mem_map_of_mem hother)
        simp [due, lastRun_record, hne]
      rw [if_pos hdue, ih hnames.2, hsame, List.filter_cons_of_pos hdue, List.append_assoc]
      rfl
    · rw [if_neg hdue, ih hnames.2, List.filter_cons_of_neg hdue]

/-- **The check of the tasks** launches the due jobs, with one call each, and records them. -/
theorem onTaskCheck_eq (nowMs : Int) (d : DiskMain L) : onTaskCheck nowMs d =
    (⟨startAll (dueJobs nowMs d) d.state,
      (dueJobs nowMs d).foldl (record nowMs) d.schedulerState⟩, dueJobs nowMs d) :=
  foldl_checkJob nowMs _ (KeyedStore.items_key_nodup d.state.jobs) d []

theorem onTaskCheck_starts (nowMs : Int) (d : DiskMain L) : Starts d.state
    (onTaskCheck nowMs d).1.state ((dueJobs nowMs d).map TiBackupJob.name) := by
  rw [onTaskCheck_eq]
  exact startAll_starts _ _

/-- A job is due when it is stored, has a schedule, and one of its slots is open and
later than the last run of its name. -/
theorem mem_dueJobs {nowMs : Int} {d : DiskMain L} {job : TiBackupJob} :
    job ∈ dueJobs nowMs d ↔ Api.getJobByName d.state job.name = some job ∧
      job.intervalType ≠ .NONE ∧ ∃ slot, L.scheduler.isSlot job slot ∧ 1000 * slot ≤ nowMs ∧
        nowMs ≤ 1000 * (slot + L.scheduler.graceSecs) ∧
          lastRun d.schedulerState job.name < slot := by
  rw [dueJobs, List.mem_filter, due, Bool.and_eq_true, decide_eq_true_iff,
    L.scheduler.shouldRun_iff]
  exact and_congr_left' KeyedStore.mem_items

theorem dueJobs_names_nodup (nowMs : Int) (d : DiskMain L) :
    ((dueJobs nowMs d).map TiBackupJob.name).Nodup :=
  (KeyedStore.items_key_nodup (S := L.jobs.toKeyedStore) d.state.jobs).sublist
    ((List.filter_sublist).map _)

end DiskMain

end TiBackup
