import TiBackup.Jobs.Identity

/-!
# TiBackup.Jobs.Slots

**Every slot of a job is launched at most once, unless the job is renamed in time to be
launched again.** The state file has one value a name, the last run. It only grows, and
a slot is launched only while it is later than that value, so under one name no slot
comes twice, across restarts and edits of the schedule alike.

A rename leaves the value behind. The job finds under its new name whatever was filed
there, as a rule nothing, and until the grace period of its last slot is over that slot
is due again (`rename_launches_again`). If every slot launched so far is covered by the
last run of the new name, or is over, the rename does no harm (`RenameCovered`).
-/

namespace TiBackup

open Lib Lib.Machine

variable {L : Library}

namespace Traced

/-- No slot of a job was launched twice. -/
def SlotsOnce (t : Traced L) : Prop :=
  t.launches.Pairwise fun a b =>
    ∀ slot, a.Covers L.scheduler slot → b.Covers L.scheduler slot → a.job ≠ b.job

/-- The slot cannot be launched under this name any more: the last run is not before
it, or its grace period is over. -/
def Spent (t : Traced L) (name : String) (slot : Int) : Prop :=
  slot ≤ t.lastRun name ∨ 1000 * (slot + L.scheduler.graceSecs) < t.clock

/-- The tasks are checked at times that never go back. -/
def OnTime (t : Traced L) : Event → Prop
  | .tick nowMs | .restart _ nowMs => t.clock ≤ nowMs
  | _ => True

/-- A job is renamed only when all of its slots that were launched are spent under the
new name. -/
def RenameCovered (t : Traced L) : Event → Prop
  | .request c => ∀ name new, t.Renames c name new → ∀ l ∈ t.launches, l.job = t.owner name →
      ∀ slot, l.Covers L.scheduler slot → t.Spent new slot
  | _ => True

/-! ### The invariant -/

/-- What is known at any time: the slots launched for a job are spent under the name
it has now. -/
structure SlotsSpent (t : Traced L) : Prop where
  tracked : Tracked t
  once : t.SlotsOnce
  known : ∀ l ∈ t.launches, ∃ i < t.nextId, l.job = some i
  spent : ∀ l ∈ t.launches, ∀ name, t.owner name = l.job → ∀ slot, l.Covers L.scheduler slot →
    t.Spent name slot

/-- The launches of a check are those of the due jobs. -/
theorem launches_checked (nowMs : Int) (t : Traced L) :
    (t.checked nowMs).launches = t.launches ++ (DiskMain.dueJobs nowMs t.daemon).map fun job =>
      ⟨t.owner job.name, job, nowMs, t.lastRun job.name⟩ := by
  simp only [checked, DiskMain.onTaskCheck_eq]

/-- The last run after a check. -/
theorem lastRun_checked (nowMs : Int) (t : Traced L) (name : String) :
    (t.checked nowMs).lastRun name =
      if name ∈ (DiskMain.dueJobs nowMs t.daemon).map TiBackupJob.name then nowMs / 1000
      else t.lastRun name := by
  show DiskMain.lastRun (DiskMain.onTaskCheck nowMs t.daemon).1.schedulerState name = _
  rw [DiskMain.onTaskCheck_eq]
  exact DiskMain.lastRun_foldl_record nowMs _ _ name

/-- A check never sets a last run back. -/
theorem lastRun_le_checked (nowMs : Int) (t : Traced L) (name : String) :
    t.lastRun name ≤ (t.checked nowMs).lastRun name := by
  rw [lastRun_checked]
  split
  · next hdue =>
    obtain ⟨job, hjob, rfl⟩ := List.mem_map.mp hdue
    obtain ⟨-, -, slot, -, hslot, -, hlast⟩ := DiskMain.mem_dueJobs.mp hjob
    have hlast : t.lastRun job.name < slot := hlast
    omega
  · exact le_refl _

theorem Spent.checked {t : Traced L} {name : String} {slot nowMs : Int} (h : t.Spent name slot)
    (htime : t.clock ≤ nowMs) : (t.checked nowMs).Spent name slot := by
  rcases h with hrun | hover
  · exact .inl (hrun.trans (lastRun_le_checked nowMs t name))
  · exact .inr (lt_of_lt_of_le hover htime)

/-- A slot that is spent is not launched. -/
theorem Spent.not_covers {t : Traced L} {name : String} {slot nowMs : Int} {record : TiBackupJob}
    {job : Option Nat} (h : t.Spent name slot) (htime : t.clock ≤ nowMs) :
    ¬Launch.Covers L.scheduler ⟨job, record, nowMs, t.lastRun name⟩ slot := by
  rintro ⟨-, -, hgrace, hlast⟩
  rcases h with hrun | hover
  · exact absurd hlast (not_lt.mpr hrun)
  · exact absurd (lt_of_lt_of_le hover htime) (not_lt.mpr hgrace)

/-- A due job is stored, so it has a number. -/
theorem Tracked.owner_of_due {t : Traced L} (h : Tracked t) {nowMs : Int} {job : TiBackupJob}
    (hjob : job ∈ DiskMain.dueJobs nowMs t.daemon) : ∃ i, t.owner job.name = some i := by
  rw [← Option.isSome_iff_exists, h.stored]
  exact Option.isSome_iff_exists.mpr ⟨job, (DiskMain.mem_dueJobs.mp hjob).1⟩

theorem SlotsSpent.checked {t : Traced L} (h : SlotsSpent t) {nowMs : Int}
    (htime : t.clock ≤ nowMs) : SlotsSpent (t.checked nowMs) where
  tracked := h.tracked.checked nowMs
  once := by
    rw [SlotsOnce, launches_checked]
    refine List.pairwise_append.mpr ⟨h.once, ?_, ?_⟩
    · -- Two jobs that are due have different names, so they are different jobs.
      rw [List.pairwise_map]
      have hnames := DiskMain.dueJobs_names_nodup nowMs t.daemon
      rw [List.Nodup, List.pairwise_map] at hnames
      refine hnames.imp_of_mem fun {a b} ha hb hne slot _ _ hjob => hne ?_
      obtain ⟨i, hi⟩ := h.tracked.owner_of_due ha
      have hsame : t.owner a.name = t.owner b.name := hjob
      exact h.tracked.injective _ _ i hi (hsame ▸ hi)
    · intro a ha b hb slot hcovers hcovers' hjob
      obtain ⟨job, -, rfl⟩ := List.mem_map.mp hb
      exact (h.spent a ha job.name hjob.symm slot hcovers).not_covers htime hcovers'
  known := by
    intro l hl
    rw [launches_checked] at hl
    rcases List.mem_append.mp hl with hold | hnew
    · exact h.known l hold
    · obtain ⟨job, hjob, rfl⟩ := List.mem_map.mp hnew
      obtain ⟨i, hi⟩ := h.tracked.owner_of_due hjob
      exact ⟨i, h.tracked.fresh _ i hi, hi⟩
  spent := by
    intro l hl name howner slot hcovers
    rw [launches_checked] at hl
    rcases List.mem_append.mp hl with hold | hnew
    · exact (h.spent l hold name howner slot hcovers).checked htime
    · -- The name is the one the job was launched under, and its run is on record.
      obtain ⟨job, hjob, rfl⟩ := List.mem_map.mp hnew
      obtain ⟨i, hi⟩ := h.tracked.owner_of_due hjob
      obtain rfl : name = job.name := h.tracked.injective _ _ i (howner.trans hi) hi
      refine .inl ?_
      rw [lastRun_checked, if_pos (List.mem_map_of_mem hjob)]
      have hslot : 1000 * slot ≤ nowMs := hcovers.2.1
      omega

theorem SlotsSpent.moved {t : Traced L} (h : SlotsSpent t) {st : State L}
    (hjobs : st.jobs = t.daemon.state.jobs) : SlotsSpent (t.moved st) where
  tracked := h.tracked.moved hjobs
  once := h.once
  known := h.known
  spent := h.spent

theorem SlotsSpent.served {t : Traced L} (h : SlotsSpent t) {c : Call}
    (hcovered : t.RenameCovered (.request c)) : SlotsSpent (t.served c) where
  tracked := h.tracked.served c
  once := h.once
  known := by
    intro l hl
    obtain ⟨i, hi, hjob⟩ := h.known l hl
    refine ⟨i, ?_, hjob⟩
    cases requestStep c t with
    | kept _ _ hid | put _ _ _ _ _ _ _ hid | deleted _ _ hid => omega
    | created _ _ _ hid => omega
  spent := by
    intro l hl name howner slot hcovers
    obtain ⟨i, hi, hjob⟩ := h.known l hl
    rw [hjob] at howner
    -- The state file is not touched: only the name of the job matters.
    show t.Spent name slot
    cases requestStep c t with
    | kept names howner' =>
      rw [howner'] at howner
      exact h.spent l hl name (howner.trans hjob.symm) slot hcovers
    | created name' hfree howner' =>
      rw [howner', Function.update_apply] at howner
      split at howner
      · obtain rfl := Option.some.inj howner
        exact absurd hi (lt_irrefl _)
      · exact h.spent l hl name (howner.trans hjob.symm) slot hcovers
    | put old new hroute hanswered hnew hput howner' =>
      rw [howner'] at howner
      rcases owner_put howner with ⟨rfl, hold⟩ | ⟨-, -, hold⟩
      · by_cases hsame : name = old
        · rw [hsame]
          exact h.spent l hl old (hold.trans hjob.symm) slot hcovers
        · exact hcovered old name ⟨hroute, hanswered, hnew, hsame⟩ l hl (hjob.trans hold.symm)
            slot hcovers
      · exact h.spent l hl name (hold.trans hjob.symm) slot hcovers
    | deleted name' howner' =>
      rw [howner', Function.update_apply, Option.ite_none_left_eq_some] at howner
      exact h.spent l hl name (howner.2.trans hjob.symm) slot hcovers

theorem SlotsSpent.step {t : Traced L} (h : SlotsSpent t) {e : Event} (htime : t.OnTime e)
    (hcovered : t.RenameCovered e) : SlotsSpent ((watch L).next t e) := by
  cases e with
  | request c => exact h.served hcovered
  | tick nowMs => exact h.checked htime
  | restart tls nowMs =>
    have hmoved : SlotsSpent (t.moved (DiskMain.restarted tls t.daemon.state)) := h.moved rfl
    exact hmoved.checked htime
  | diskAdded disk => exact h.moved (DiskMain.onDiskAdded_starts disk t.daemon.state).jobs
  | backupEnded name status => exact h.moved rfl

theorem SlotsSpent.initial (d : DiskMain L) (clock : Int) :
    SlotsSpent (Traced.initial d clock) where
  tracked := .initial d clock
  once := .nil
  known l hl := by cases hl
  spent l hl := by cases hl

/-! ### A rename in time -/

/-- The launches lie in the past. -/
def LaunchesPast (t : Traced L) : Prop := ∀ l ∈ t.launches, l.nowMs ≤ t.clock

theorem launchesPast_checked {t : Traced L} (h : t.LaunchesPast) {nowMs : Int}
    (htime : t.clock ≤ nowMs) : (t.checked nowMs).LaunchesPast := by
  intro l hl
  rw [launches_checked] at hl
  rcases List.mem_append.mp hl with hold | hnew
  · exact (h l hold).trans htime
  · obtain ⟨job, -, rfl⟩ := List.mem_map.mp hnew
    exact le_refl _

theorem launchesPast_moved {t : Traced L} (h : t.LaunchesPast) (st : State L) :
    (t.moved st).LaunchesPast :=
  fun l hl => h l hl

theorem launchesPast_step (t : Traced L) (e : Event) (h : t.LaunchesPast) (htime : t.OnTime e) :
    ((watch L).next t e).LaunchesPast := by
  cases e with
  | tick nowMs => exact launchesPast_checked h htime
  | restart tls nowMs =>
    exact launchesPast_checked (launchesPast_moved h (DiskMain.restarted tls t.daemon.state)) htime
  | request c => exact fun l hl => h l hl
  | diskAdded disk => exact launchesPast_moved h _
  | backupEnded name status => exact launchesPast_moved h _

/-- The request renames a job that has a slot that was launched and is not spent under
the new name, and that is a slot of the job after the request too. -/
def RenamesInTime (t : Traced L) (c : Call) : Prop :=
  ∃ name new, t.Renames c name new ∧ ∃ l ∈ t.launches, l.job = t.owner name ∧
    ∃ slot, l.Covers L.scheduler slot ∧ ¬t.Spent new slot ∧
      (Api.bodyJob c.req).intervalType ≠ .NONE ∧
        L.scheduler.isSlot { Api.bodyJob c.req with name := new } slot

/-- After such a rename the next check may launch the slot a second time. -/
theorem rename_launches_again {t : Traced L} (hpast : t.LaunchesPast)
    {c : Call} (h : t.RenamesInTime c) : ¬((t.served c).checked t.clock).SlotsOnce := by
  obtain ⟨name, new, ⟨hroute, hanswered, hnew, hother⟩, l, hl, hjob, slot, hcovers, hunspent,
    hscheduled, hslot⟩ := h
  intro honce
  rw [SlotsOnce, launches_checked] at honce
  obtain ⟨hlast, hopen⟩ := not_or.mp hunspent
  have hpassed : 1000 * slot ≤ t.clock := hcovers.2.1.trans (hpast l hl)
  obtain ⟨hput, howner, -⟩ := served_put hroute hanswered
  rw [← hnew] at hput howner
  have hdue : { Api.bodyJob c.req with name := new } ∈
      DiskMain.dueJobs t.clock (t.served c).daemon := by
    refine DiskMain.mem_dueJobs.mpr ⟨?_, hscheduled, slot, hslot, hpassed, not_lt.mp hopen,
      not_le.mp hlast⟩
    rw [hput.find, if_pos rfl]
  have howner' : (t.served c).owner new = l.job := by
    rw [howner, Function.update_self, hjob]
  refine (List.pairwise_append.mp honce).2.2 l hl _ (List.mem_map_of_mem hdue) slot hcovers ?_
    howner'.symm
  exact ⟨hslot, hpassed, not_lt.mp hopen, not_le.mp hlast⟩

/-- **Slots are launched at most once, unless a job is renamed in time.** In every run
in which the tasks are checked at times that never go back, and every rename finds the
launched slots of the job spent under the new name, no slot of a job is launched twice.
And after every run a rename for which that fails, of a job that keeps the slot, lets
the next check launch the slot again. -/
theorem slots_launched_once (d : DiskMain L) (clock : Int) :
    (∀ es, (watch L).Along (fun t e => t.OnTime e ∧ t.RenameCovered e) (initial d clock) es →
      ((watch L).run (initial d clock) es).SlotsOnce) ∧
    ∀ es c, (watch L).Along OnTime (initial d clock) es →
      ((watch L).run (initial d clock) es).RenamesInTime c →
      ¬((watch L).run (initial d clock) (es ++ [.request c,
        .tick ((watch L).run (initial d clock) es).clock])).SlotsOnce := by
  constructor
  · intro es halong
    have hspent : SlotsSpent ((watch L).run (initial d clock) es) := by
      refine invariant_run (I := SlotsSpent) ?_ (.initial d clock) halong
      intro t e ht he
      exact ht.step he.1 he.2
    exact hspent.once
  · intro es c htime hrename
    have hpast : ((watch L).run (initial d clock) es).LaunchesPast :=
      invariant_run launchesPast_step (fun l hl => by cases hl) htime
    rw [run_append]
    exact rename_launches_again hpast hrename

/-- The job is launched at its slot, its backup is over, the job is renamed, and the
next check launches it again. -/
def nightlyRun : List Event :=
  [.tick 60000,
    .backupEnded "nightly" ⟨.finished, nofun⟩,
    .request ⟨.putJob "nightly", Reference.request (.obj (JsonMap.jobToJson (nightly "offsite"))),
      { Reference.moment "11111111" with now := 61, later := 61, created := 61 }⟩,
    .tick 120000]

/-- What the two launches of the run are: the same job, the same slot. -/
theorem nightlyRun_launches : (((watch _).run nightlyStart nightlyRun).launches.map fun l =>
    (l.job, l.record.intervalType, l.record.intervalTime, l.nowMs, l.lastRun)) =
      [(some 0, .DAILY, "00:01", 60000, 0), (some 0, .DAILY, "00:01", 120000, 0)] := by
  decide +kernel

/-- The second backup is really started. -/
theorem nightly_launched_twice :
    (watch _).Along OnTime nightlyStart nightlyRun ∧
      ((watch _).run nightlyStart nightlyRun).status "offsite" = .running ∧
      ¬((watch _).run nightlyStart nightlyRun).SlotsOnce := by
  refine ⟨?_, by decide +kernel, ?_⟩
  · refine ⟨?_, trivial, trivial, ?_, trivial⟩
    · show nightlyStart.clock ≤ 60000
      decide
    · show (60000 : Int) ≤ 120000
      decide
  · intro honce
    have hlaunches := nightlyRun_launches
    obtain ⟨a, b, hab⟩ : ∃ a b, ((watch _).run nightlyStart nightlyRun).launches = [a, b] :=
      List.length_eq_two.mp (by simpa using congrArg List.length hlaunches)
    rw [SlotsOnce, hab] at honce
    simp only [hab, List.map_cons, List.map_nil, List.cons.injEq, Prod.mk.injEq, and_true] at hlaunches
    obtain ⟨⟨hjob, htype, htime, hnow, hlast⟩, hjob', htype', htime', hnow', hlast'⟩ := hlaunches
    have hslot : ∀ l : Launch, l.record.intervalType = .DAILY → l.record.intervalTime = "00:01" →
        Reference.library.scheduler.isSlot l.record 60 := by
      intro l hdaily hminute
      refine ⟨hdaily, ?_⟩
      rw [hminute]
      decide
    have hgrace : Reference.library.scheduler.graceSecs = 3600 := rfl
    refine List.rel_of_pairwise_cons honce (List.mem_singleton_self b) 60 ?_ ?_
      (hjob.trans hjob'.symm)
    · refine ⟨hslot a htype htime, ?_, ?_, ?_⟩ <;> omega
    · refine ⟨hslot b htype' htime', ?_, ?_, ?_⟩ <;> omega

end Traced

end TiBackup
