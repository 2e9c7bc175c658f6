import TiBackup.Jobs.TaskCheck
import TiBackup.Model.Reference

/-!
# TiBackup.Jobs.Hotplug

**Which jobs a disk starts.** `onDiskAdded` asks the store for the jobs of each partition in
turn, and calls `startBackup` for each that starts on hotplug: a hotplug job is started as often
as its partition uuid occurs on the disk (`count_hotplugJobs`). That is once for the jobs of the
disk, and never for the others, unless two partitions share a uuid or one has none: a job that
was saved without a partition has the empty uuid too (`onDiskAdded_exact_iff`).
-/

namespace TiBackup

open Lib

variable {L : Library}

namespace DiskMain

/-- A job the disk is to start: it starts on hotplug, and its partition is on the disk. -/
structure StartedBy (disk : DeviceDisk) (job : TiBackupJob) : Prop where
  hotplug : job.startBackupOnHotplug = true
  configured : job.partitionUuid ≠ ""
  attached : ∃ part ∈ disk.partitions, part.uuid = job.partitionUuid

/-- The names `onDiskAdded` calls `startBackup` with, call by call. -/
def started (disk : DeviceDisk) (st : State L) : List String :=
  (onDiskAdded disk st).2.map TiBackupJob.name

/-- **Hotplug is right**: `startBackup` is called once for each job of the disk, and for no
other name. -/
structure HotplugExact (disk : DeviceDisk) (st : State L) : Prop where
  once : ∀ job, Api.getJobByName st job.name = some job → StartedBy disk job →
    (started disk st).count job.name = 1
  only : ∀ name ∈ started disk st, ∃ job, Api.getJobByName st name = some job ∧ StartedBy disk job

/-- The uuids of the disk tell its partitions apart, as far as the hotplug jobs look at them. -/
structure UuidsApart (disk : DeviceDisk) (st : State L) : Prop where
  /-- There is no partition without a uuid for a job without a partition. -/
  named : ∀ job, Api.getJobByName st job.name = some job → job.startBackupOnHotplug = true →
    job.partitionUuid = "" → ∀ part ∈ disk.partitions, part.uuid ≠ ""
  /-- No two partitions have the uuid of one job. -/
  distinct : ∀ job, Api.getJobByName st job.name = some job → job.startBackupOnHotplug = true →
    job.partitionUuid ≠ "" → disk.partitions.countP (fun part => part.uuid = job.partitionUuid) ≤ 1

/-! ### Counting the starts -/

/-- A job is started for a partition when it is stored, has its uuid, and starts on hotplug. -/
theorem mem_jobsByUuid_hotplug {st : State L} {uuid : String} {job : TiBackupJob} :
    job ∈ (L.jobs.jobsByUuid st.jobs uuid).filter TiBackupJob.startBackupOnHotplug ↔
      Api.getJobByName st job.name = some job ∧ job.partitionUuid = uuid ∧
        job.startBackupOnHotplug = true := by
  rw [List.mem_filter, (L.jobs.jobsByUuid_perm st.jobs uuid).mem_iff, List.mem_filter,
    KeyedStore.mem_items, decide_eq_true_iff, and_assoc]
  rfl

/-- One partition starts a name at most once. -/
theorem nodup_jobsByUuid_hotplug (st : State L) (uuid : String) :
    (((L.jobs.jobsByUuid st.jobs uuid).filter TiBackupJob.startBackupOnHotplug).map
      TiBackupJob.name).Nodup := by
  have hitems := KeyedStore.items_key_nodup (S := L.jobs.toKeyedStore) st.jobs
  have hfound : ((L.jobs.jobsByUuid st.jobs uuid).map TiBackupJob.name).Nodup := by
    rw [((L.jobs.jobsByUuid_perm st.jobs uuid).map TiBackupJob.name).nodup_iff]
    exact hitems.sublist (List.filter_sublist.map _)
  exact hfound.sublist (List.filter_sublist.map _)

/-- **One partition** starts a hotplug job once, if the uuid is its own. -/
theorem count_jobsByUuid_hotplug {st : State L} {job : TiBackupJob}
    (hjob : Api.getJobByName st job.name = some job) (hhotplug : job.startBackupOnHotplug = true)
    (uuid : String) :
    (((L.jobs.jobsByUuid st.jobs uuid).filter TiBackupJob.startBackupOnHotplug).map
      TiBackupJob.name).count job.name = if uuid = job.partitionUuid then 1 else 0 := by
  have hmem : job.name ∈ ((L.jobs.jobsByUuid st.jobs uuid).filter
      TiBackupJob.startBackupOnHotplug).map TiBackupJob.name ↔ uuid = job.partitionUuid := by
    rw [List.mem_map]
    constructor
    · rintro ⟨other, hother, hname⟩
      obtain ⟨hstored, rfl, -⟩ := mem_jobsByUuid_hotplug.mp hother
      -- The store has one job of that name.
      rw [hname, hjob] at hstored
      rw [Option.some.inj hstored]
    · intro huuid
      exact ⟨job, mem_jobsByUuid_hotplug.mpr ⟨hjob, huuid.symm, hhotplug⟩, rfl⟩
  rw [(nodup_jobsByUuid_hotplug st uuid).count]
  simp only [hmem]

/-- **A whole disk** starts a hotplug job as often as it has its uuid. -/
theorem count_hotplugJobs {st : State L} {job : TiBackupJob}
    (hjob : Api.getJobByName st job.name = some job) (hhotplug : job.startBackupOnHotplug = true)
    (disk : DeviceDisk) :
    ((hotplugJobs disk st).map TiBackupJob.name).count job.name =
      disk.partitions.countP fun part => part.uuid = job.partitionUuid := by
  unfold hotplugJobs
  induction disk.partitions with
  | nil => rfl
  | cons part parts ih =>
    rw [List.flatMap_cons, List.map_append, List.count_append, ih, List.countP_cons,
      count_jobsByUuid_hotplug hjob hhotplug, Nat.add_comm]
    simp only [decide_eq_true_eq]

/-- What is started is stored, starts on hotplug, and has the uuid of a partition. -/
theorem mem_hotplugJobs {disk : DeviceDisk} {st : State L} {job : TiBackupJob} :
    job ∈ hotplugJobs disk st ↔ Api.getJobByName st job.name = some job ∧
      job.startBackupOnHotplug = true ∧ ∃ part ∈ disk.partitions, part.uuid = job.partitionUuid := by
  simp only [hotplugJobs, List.mem_flatMap, mem_jobsByUuid_hotplug]
  constructor
  · rintro ⟨part, hpart, hjob, huuid, hhotplug⟩
    exact ⟨hjob, hhotplug, part, hpart, huuid.symm⟩
  · rintro ⟨hjob, hhotplug, part, hpart, huuid⟩
    exact ⟨part, hpart, hjob, huuid.symm, hhotplug⟩

/-! ### The whole statement -/

/-- The calls are those for the selected jobs. -/
theorem started_eq (disk : DeviceDisk) (st : State L) :
    started disk st = (hotplugJobs disk st).map TiBackupJob.name := by
  rw [started, onDiskAdded_eq]

theorem hotplugExact_iff (disk : DeviceDisk) (st : State L) :
    HotplugExact disk st ↔ UuidsApart disk st := by
  constructor
  · intro h
    refine ⟨?_, ?_⟩
    · intro job hjob hhotplug hempty part hpart huuid
      -- Such a partition starts the job, which has no partition.
      have hstarted : job ∈ hotplugJobs disk st :=
        mem_hotplugJobs.mpr ⟨hjob, hhotplug, part, hpart, huuid.trans hempty.symm⟩
      obtain ⟨job', hjob', hdue⟩ :=
        h.only job.name (started_eq disk st ▸ List.mem_map_of_mem hstarted)
      rw [hjob] at hjob'
      obtain rfl := Option.some.inj hjob'
      exact hdue.configured hempty
    · intro job hjob hhotplug hconfigured
      by_cases hattached : ∃ part ∈ disk.partitions, part.uuid = job.partitionUuid
      · rw [← count_hotplugJobs hjob hhotplug, ← started_eq,
          h.once job hjob ⟨hhotplug, hconfigured, hattached⟩]
      · have hnone : disk.partitions.countP (fun part => part.uuid = job.partitionUuid) = 0 := by
          rw [List.countP_eq_zero]
          intro part hpart
          simpa using fun huuid => hattached ⟨part, hpart, huuid⟩
        rw [hnone]
        exact Nat.zero_le 1
  · intro h
    refine ⟨?_, ?_⟩
    · intro job hjob hdue
      have hone := h.distinct job hjob hdue.hotplug hdue.configured
      have hsome : 0 < disk.partitions.countP fun part => part.uuid = job.partitionUuid := by
        obtain ⟨part, hpart, huuid⟩ := hdue.attached
        exact List.countP_pos_iff.mpr ⟨part, hpart, decide_eq_true huuid⟩
      rw [started_eq, count_hotplugJobs hjob hdue.hotplug]
      omega
    · intro name hname
      rw [started_eq] at hname
      obtain ⟨job, hstarted, rfl⟩ := List.mem_map.mp hname
      obtain ⟨hjob, hhotplug, part, hpart, huuid⟩ := mem_hotplugJobs.mp hstarted
      refine ⟨job, hjob, hhotplug, ?_, part, hpart, huuid⟩
      intro hempty
      exact h.named job hjob hhotplug hempty part hpart (huuid.trans hempty)

/-- **A disk starts the right jobs** exactly when its uuids are apart. What is counted are
the calls of `startBackup` that `onDiskAdded` makes: one for each job of `hotplugJobs`, and
these have all the effect there is. -/
theorem onDiskAdded_exact_iff (disk : DeviceDisk) (st : State L) :
    onDiskAdded disk st = (startAll (hotplugJobs disk st) st, hotplugJobs disk st) ∧
      (HotplugExact disk st ↔ UuidsApart disk st) :=
  ⟨onDiskAdded_eq disk st, hotplugExact_iff disk st⟩

/-- A disk with one partition of this uuid for each of them. -/
def diskOf (uuids : List String) : DeviceDisk where
  name := "sdb"
  uuid := ""
  devname := "/dev/sdb"
  devtype := "disk"
  vendor := "Generic"
  model := "Flash Disk"
  partitions := uuids.map fun uuid => ⟨"/dev/sdb1", uuid, "", "ext4"⟩

/-- A job to be started on hotplug was saved without a partition. -/
def unplacedState : State Reference.library :=
  (Api.postJob (Reference.request
      (.obj [("name", .str "photos"), ("start_backup_on_hotplug", .bool true)]))
    (Reference.moment "") Reference.initial).1

/-- **Any partition without a uuid** starts that job. -/
theorem onDiskAdded_unplaced : ¬HotplugExact (diskOf ["", "11-22"]) unplacedState := by
  intro h
  have hstarted : "photos" ∈ started (diskOf ["", "11-22"]) unplacedState := by
    decide +kernel
  obtain ⟨job, hjob, hdue⟩ := h.only "photos" hstarted
  have hunplaced : (Api.getJobByName unplacedState "photos").map TiBackupJob.partitionUuid =
      some "" := by
    decide +kernel
  rw [hjob] at hunplaced
  exact hdue.configured (Option.some.inj hunplaced)

end DiskMain

end TiBackup
