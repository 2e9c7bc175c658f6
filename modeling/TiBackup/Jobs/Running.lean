import TiBackup.Jobs.Identity

/-!
# TiBackup.Jobs.Running

**One backup at a time for each job, unless the job is renamed meanwhile.** The manager
runs at most one backup a name. As long as a job keeps the name its backup was started
under, that is one backup a job, and asking for the status of the name tells about the
backup (`RunsUnderName`).

A rename does not take the registration along. The running backup stays under the old
name, where nobody asks any more, and the new name is free: the job is reported as idle
at once (`rename_hides_backup`), and a second backup of it can be started.
-/

namespace TiBackup

open Lib Lib.Machine

variable {L : Library}

/-- Whoever asks for the job, or for the list of jobs, is told that it is running. -/
def ReportsRunning (st : State L) (name : String) : Prop :=
  ∀ req m s, LiveSession st m.now req s →
    (∃ body, (Api.getJob name req m st).2 = .now (jsonResp (.obj body)) ∧
      Json.Fields.get body "status" = .str "running") ∧
    ∃ list fields, (Api.getJobs req m st).2 = .now (jsonResp (.arr list)) ∧
      .obj fields ∈ list ∧ Json.Fields.get fields "name" = .str name ∧
        Json.Fields.get fields "status" = .str "running"

/-- The status field of a job response, and of an entry of the list. -/
theorem get_status_jobResponse (st : State L) (name : String) (job : TiBackupJob) :
    Json.Fields.get (Api.jobResponse st name job) "status" = .str (Api.jobStatus st name) := by
  simp [Api.jobResponse, JsonMap.jobToJson, Json.Fields.get, List.lookup_cons]

theorem statusToString_eq_running {s : BackupStatus} (h : Api.statusToString s = "running") :
    s = .running := by
  cases s with
  | running => rfl
  | failed | finished | standby => exact absurd h (by decide)

theorem reportsRunning_of_running {st : State L} {name : String} {job : TiBackupJob}
    (hstored : Api.getJobByName st name = some job)
    (hrunning : L.manager.getBackupStatus st.manager name = .running) :
    ReportsRunning st name := by
  intro req m s hlive
  have hkey : job.name = name := L.jobs.key_of_find hstored
  have hstatus : Api.jobStatus (st.validated m.now req) name = "running" := by
    show Api.statusToString (L.manager.getBackupStatus st.manager name) = _
    rw [hrunning]
    rfl
  constructor
  · have hfound : Api.getJobByName (st.validated m.now req) name = some job := hstored
    refine ⟨Api.jobResponse (st.validated m.now req) name job, ?_, ?_⟩
    · rw [Api.getJob, Api.withAuth_of_live hlive, Api.reads, hfound]
    · rw [get_status_jobResponse, hstatus]
  · have hlisted : job ∈ Api.allJobs (st.validated m.now req) :=
      KeyedStore.mem_items.mpr (hkey ▸ hstored)
    refine ⟨(Api.allJobs (st.validated m.now req)).map fun job =>
        .obj (Api.jobEntry (st.validated m.now req) job),
      Api.jobEntry (st.validated m.now req) job, ?_, List.mem_map.mpr ⟨job, hlisted, rfl⟩, ?_, ?_⟩
    · rw [Api.getJobs, Api.withAuth_of_live hlive, Api.reads]
    · simp [Api.jobEntry, Json.Fields.get, hkey]
    · simp [Api.jobEntry, Json.Fields.get, List.lookup_cons, hkey, hstatus]

/-- A job that is not running is not reported as running to anyone who is logged in. -/
theorem not_reportsRunning {st : State L} {name : String} {req : Request} {m : Moment} {s : Session}
    (hlive : LiveSession st m.now req s)
    (hidle : L.manager.getBackupStatus st.manager name ≠ .running) : ¬ReportsRunning st name := by
  intro h
  obtain ⟨⟨body, hanswer, hstatus⟩, -⟩ := h req m s hlive
  rw [Api.getJob, Api.withAuth_of_live hlive, Api.reads] at hanswer
  cases hfound : Api.getJobByName (st.validated m.now req) name with
  | none =>
    rw [hfound] at hanswer
    cases hanswer
  | some job =>
    rw [hfound] at hanswer
    cases hanswer
    rw [get_status_jobResponse, Json.str.injEq] at hstatus
    refine hidle (statusToString_eq_running ?_)
    exact hstatus

namespace Traced

/-- A backup of the job is running. -/
def HasBackup (t : Traced L) (i : Nat) (n : String) : Prop :=
  t.status n = .running ∧ t.startedFor n = some i

/-- No job has two running backups, and a job whose backup is running is reported so
under the name it has. -/
structure OneBackup (t : Traced L) : Prop where
  one : ∀ i n n', t.HasBackup i n → t.HasBackup i n' → n = n'
  reported : ∀ i n name, t.HasBackup i n → t.owner name = some i →
    ReportsRunning t.daemon.state name

/-- No job is renamed while its backup is running. -/
def RenameIdle (t : Traced L) : Event → Prop
  | .request c => ∀ name new, t.Renames c name new →
      ∀ i n, t.owner name = some i → ¬t.HasBackup i n
  | _ => True

/-! ### The invariant -/

/-- The backup of a job is running under the name of the job. -/
structure RunsUnderName (t : Traced L) : Prop where
  named : ∀ i n name, t.HasBackup i n → t.owner name = some i → name = n
  one : ∀ i n n', t.HasBackup i n → t.HasBackup i n' → n = n'
  fresh : ∀ n i, t.startedFor n = some i → i < t.nextId

/-- A backup that is running after a step was running before, for the same job, or was
started for the job that has the name. -/
theorem hasBackup_moved {t : Traced L} {st : State L} {i : Nat} {n : String}
    (h : (t.moved st).HasBackup i n) : t.HasBackup i n ∨ t.owner n = some i := by
  obtain ⟨hrunning, hfor⟩ := h
  simp only [moved] at hfor
  split at hfor
  · exact .inr hfor
  · next hold =>
    refine .inl ⟨?_, hfor⟩
    by_contra hidle
    exact hold ⟨hidle, hrunning⟩

/-- A request that starts nothing leaves the running backups as they are. -/
theorem hasBackup_served_iff {t : Traced L} {c : Call} (h : (t.served c).status = t.status) {i : Nat}
    {n : String} : (t.served c).HasBackup i n ↔ t.HasBackup i n := by
  rw [HasBackup, HasBackup, h]
  refine and_congr_right ?_
  intro hrunning
  simp [served, Traced.moved, hrunning]

theorem RunsUnderName.moved {t : Traced L} (h : RunsUnderName t) (ht : Tracked t) (st : State L) :
    RunsUnderName (t.moved st) where
  named i n name hbackup howner := by
    rcases hasBackup_moved hbackup with hold | hnew
    · exact h.named i n name hold howner
    · exact ht.injective name n i howner hnew
  one i n n' hbackup hbackup' := by
    rcases hasBackup_moved hbackup with hold | hnew
    · rcases hasBackup_moved hbackup' with hold' | hnew'
      · exact h.one i n n' hold hold'
      · exact (h.named i n n' hold hnew').symm
    · rcases hasBackup_moved hbackup' with hold' | hnew'
      · exact h.named i n' n hold' hnew
      · exact ht.injective n n' i hnew hnew'
  fresh n i hfor := by
    simp only [Traced.moved] at hfor
    split at hfor
    · exact ht.fresh n i hfor
    · exact h.fresh n i hfor

theorem RunsUnderName.checked {t : Traced L} (h : RunsUnderName t) (ht : Tracked t) (nowMs : Int) :
    RunsUnderName (t.checked nowMs) :=
  let hmoved := h.moved ht (DiskMain.onTaskCheck nowMs t.daemon).1.state
  ⟨hmoved.named, hmoved.one, hmoved.fresh⟩

theorem RunsUnderName.served {t : Traced L} (h : RunsUnderName t) (ht : Tracked t) {c : Call}
    (hidle : t.RenameIdle (.request c)) : RunsUnderName (t.served c) := by
  have hmoved := h.moved ht (Api.serve c t.daemon.state).1
  have hid : t.nextId ≤ (t.served c).nextId := by
    cases requestStep c t with
    | kept _ _ hid | put _ _ _ _ _ _ _ hid | deleted _ _ hid => omega
    | created _ _ _ hid => omega
  refine ⟨?_, hmoved.one, ?_⟩
  · intro i n name hbackup howner
    have hnamed : ∀ name, t.owner name = some i → name = n := fun name =>
      hmoved.named i n name hbackup
    cases requestStep c t with
    | kept names howner' =>
      rw [howner'] at howner
      exact hnamed name howner
    | created name' hfree howner' =>
      rw [howner', Function.update_apply] at howner
      split at howner
      · -- A job that was just created has no backup yet.
        obtain rfl := Option.some.inj howner
        exact absurd (hmoved.fresh n _ hbackup.2) (lt_irrefl _)
      · exact hnamed name howner
    | put old new hroute hanswered hnew hput howner' _ hstatus =>
      rw [howner'] at howner
      rcases owner_put howner with ⟨rfl, hold⟩ | ⟨-, -, hold⟩
      · by_cases hsame : name = old
        · rw [hsame]
          exact hnamed old hold
        · -- The job was renamed, so none of its backups is running.
          have hbefore : t.HasBackup i n := (hasBackup_served_iff hstatus).mp hbackup
          exact absurd hbefore (hidle old name ⟨hroute, hanswered, hnew, hsame⟩ i n hold)
      · exact hnamed name hold
    | deleted name' howner' =>
      rw [howner', Function.update_apply, Option.ite_none_left_eq_some] at howner
      exact hnamed name howner.2
  · intro n i hfor
    exact lt_of_lt_of_le (hmoved.fresh n i hfor) hid

theorem RunsUnderName.step {t : Traced L} (h : RunsUnderName t) (ht : Tracked t) {e : Event}
    (hidle : t.RenameIdle e) : RunsUnderName ((watch L).next t e) := by
  cases e with
  | request c => exact h.served ht hidle
  | tick nowMs => exact h.checked ht nowMs
  | restart tls nowMs =>
    have hmoved := h.moved ht (DiskMain.restarted tls t.daemon.state)
    have htracked : Tracked (t.moved (DiskMain.restarted tls t.daemon.state)) := ht.moved rfl
    exact hmoved.checked htracked nowMs
  | diskAdded disk => exact h.moved ht _
  | backupEnded name status => exact h.moved ht _

theorem RunsUnderName.initial (d : DiskMain L) (clock : Int) :
    RunsUnderName (Traced.initial d clock) where
  named i n name hbackup howner := by
    have ht := Tracked.initial d clock
    exact ht.injective name n i howner hbackup.2
  one i n n' hbackup hbackup' := by
    have ht := Tracked.initial d clock
    exact ht.injective n n' i hbackup.2 hbackup'.2
  fresh n i hfor := (Tracked.initial d clock).fresh n i hfor

/-- Where backups run under the names of their jobs, they are reported. -/
theorem RunsUnderName.oneBackup {t : Traced L} (h : RunsUnderName t) (ht : Tracked t) :
    OneBackup t where
  one := h.one
  reported i n name hbackup howner := by
    obtain rfl := h.named i n name hbackup howner
    obtain ⟨job, hjob⟩ : ∃ job, t.stored name = some job := by
      rw [← Option.isSome_iff_exists, ← ht.stored, howner]
      rfl
    exact reportsRunning_of_running hjob hbackup.1

/-! ### A rename while the backup runs -/

/-- A job that is renamed while its backup is running is reported as idle at once, if
the new name is idle. -/
theorem rename_hides_backup {t : Traced L} (httl : 0 ≤ t.daemon.state.sessions.ttl) {c : Call}
    {name new : String} (hrename : t.Renames c name new) {i : Nat} {n : String}
    (howner : t.owner name = some i) (hbackup : t.HasBackup i n) (hidle : t.status new ≠ .running) :
    ¬(t.served c).OneBackup := by
  obtain ⟨hroute, hanswered, hnew, -⟩ := hrename
  obtain ⟨-, howner', -⟩ := served_put hroute hanswered
  rw [← hnew] at howner'
  obtain ⟨route, req, m⟩ := c
  cases hroute
  have hstatus : (t.served ⟨.putJob name, req, m⟩).status = t.status :=
    status_served_of_not_writes rfl
  -- The session that sent the rename can ask for the job right away.
  have hlive : ∃ s, LiveSession (t.served ⟨.putJob name, req, m⟩).daemon.state m.now req s := by
    rcases Api.putJob_cases name req m t.daemon.state with ⟨-, hverified, hsessions, -⟩ | ⟨hno, -⟩
    · obtain ⟨s, hs⟩ := (hverified.again httl rfl rfl).live
      refine ⟨s, hs.1, ?_⟩
      show SessionStore.alive (Api.putJob name req m t.daemon.state).1.sessions.ttl m.now
        (Api.putJob name req m t.daemon.state).1.sessions.sessions[sessionToken req]? = some s
      rw [hsessions]
      exact hs.2
    · exact absurd hanswered hno
  obtain ⟨s, hs⟩ := hlive
  intro h
  refine not_reportsRunning hs ?_ (h.reported i n new ?_ ?_)
  · show (t.served ⟨.putJob name, req, m⟩).status new ≠ .running
    rw [hstatus]
    exact hidle
  · exact (hasBackup_served_iff hstatus).mpr hbackup
  · rw [howner', Function.update_self, howner]

/-- **One backup at a time for each job, unless it is renamed meanwhile.** In every run in
which no job is renamed while its backup is running, no job has two running backups,
and a job whose backup is running is reported as running under the name it has. And
after every run a rename of a job that is running, to a name that is not, leaves it
reported as idle. -/
theorem one_backup_per_job (d : DiskMain L) (clock : Int) :
    (∀ es, (watch L).Along RenameIdle (initial d clock) es →
      ((watch L).run (initial d clock) es).OneBackup) ∧
    ∀ es c name new i n, 0 ≤ ((watch L).run (initial d clock) es).daemon.state.sessions.ttl →
      ((watch L).run (initial d clock) es).Renames c name new →
      ((watch L).run (initial d clock) es).owner name = some i →
      ((watch L).run (initial d clock) es).HasBackup i n →
      ((watch L).run (initial d clock) es).status new ≠ .running →
      ¬((watch L).run (initial d clock) (es ++ [.request c])).OneBackup := by
  constructor
  · intro es halong
    have hinv : RunsUnderName ((watch L).run (initial d clock) es) ∧
        Tracked ((watch L).run (initial d clock) es) := by
      refine invariant_run (I := fun t => RunsUnderName t ∧ Tracked t) ?_
        ⟨.initial d clock, .initial d clock⟩ halong
      intro t e ht he
      exact ⟨ht.1.step ht.2 he, ht.2.step e⟩
    exact hinv.1.oneBackup hinv.2
  · intro es c name new i n httl hrename howner hbackup hidle
    rw [run_append]
    exact rename_hides_backup httl hrename howner hbackup hidle

/-- The backup of the job is started by hand, the job is renamed, and its backup is
started again. -/
def startedTwiceRun : List Event :=
  [.request ⟨.startJob "nightly", Reference.request .null, Reference.moment "11111111"⟩,
    .request ⟨.putJob "nightly", Reference.request (.obj (JsonMap.jobToJson (nightly "offsite"))),
      Reference.moment "22222222"⟩,
    .request ⟨.startJob "offsite", Reference.request .null, Reference.moment "33333333"⟩]

/-- Two backups of the job are running. -/
theorem nightly_runs_twice :
    ((watch _).run nightlyStart startedTwiceRun).HasBackup 0 "nightly" ∧
      ((watch _).run nightlyStart startedTwiceRun).HasBackup 0 "offsite" ∧
      ¬((watch _).run nightlyStart startedTwiceRun).OneBackup := by
  have hold : ((watch _).run nightlyStart startedTwiceRun).HasBackup 0 "nightly" := by
    unfold HasBackup
    decide +kernel
  have hnew : ((watch _).run nightlyStart startedTwiceRun).HasBackup 0 "offsite" := by
    unfold HasBackup
    decide +kernel
  refine ⟨hold, hnew, ?_⟩
  intro h
  exact absurd (h.one 0 "nightly" "offsite" hold hnew) (by decide)

end Traced

end TiBackup
