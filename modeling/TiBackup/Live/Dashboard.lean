import TiBackup.Auth.Mediation
import TiBackup.Model.Dashboard

/-!
# TiBackup.Live.Dashboard

**The dashboard catches up with the daemon.** The page gets the statuses of the jobs on two
ways: all of them with the answer to a request, and each change as a message. The answer may
be older than messages that have arrived already, and messages are lost while the page has no
web socket, so what is shown can be out of date.

It is not, from the moment a load is over whose jobs were listed after the last message
that was handled or lost (`Timely`), as long as the socket stays open and later loads are
timely, too: once the messages under way have arrived, every job is shown with the status it
has in the daemon (`dashboard_catches_up`).
-/

namespace TiBackup

open Lib Lib.Machine Lib.Replica

variable {L : Library}

namespace Dashboard

variable {signals : StatusSignals L} {s : Dashboard L}

/-! ### One event of the daemon -/

theorem setStatus_eq (name status : String) (jobs : List (String × String)) :
    RunViewer.setStatus name status jobs = assign name status jobs := by
  induction jobs with
  | nil => rfl
  | cons j jobs ih => rw [RunViewer.setStatus, assign, ih]

/-- What is known of the messages and listings under way in every run: the last message about
a job has its status, and so does a listing with the messages that are newer, if all of these
are under way. -/
structure Synced (s : Dashboard L) : Prop where
  announced : Announced s.process.status s.pending
  sent : s.sent = s.handled + s.pending.length
  lost : s.connected = false → s.pending = []
  loads : ∀ load ∈ s.loads, ∀ jobs n, load.listing = some (jobs, n) → n ≤ s.sent ∧
    (s.handled ≤ n → Current s.process.status (s.pending.drop (n - s.handled)) jobs)

theorem synced_start (p : Process L) : Synced (start p) where
  announced := announced_nil _
  sent := rfl
  lost _ := rfl
  loads := by simp [start]

/-- Without messages under way, a listing is up to date or was overtaken. -/
theorem Synced.disconnect (h : Synced s) : Synced s.disconnect where
  announced := announced_nil _
  sent := rfl
  lost _ := rfl
  loads load hload jobs n hlisting := by
    obtain ⟨hn, hcurrent⟩ := h.loads load hload jobs n hlisting
    refine ⟨hn, fun hle => ?_⟩
    have hlast : n = s.sent := Nat.le_antisymm hn hle
    have hall := hcurrent (by rw [hlast, h.sent]; exact Nat.le_add_right _ _)
    rw [List.drop_of_length_le (by rw [hlast, h.sent]; omega)] at hall
    exact List.drop_nil ▸ hall

theorem Synced.eraseLoad (h : Synced s) (i : Nat) :
    Synced { s with loads := s.loads.eraseIdx i } where
  announced := h.announced
  sent := h.sent
  lost := h.lost
  loads load hload := h.loads load (List.mem_of_mem_eraseIdx hload)

theorem Synced.happens (h : Synced s) (e : Process.Happening) : Synced (s.happens signals e) := by
  rw [Dashboard.happens]
  dsimp only
  split
  · exact ⟨announced_nil _, rfl, fun _ => rfl, by simp⟩
  · next hrestart =>
    have hannounces := signals.announces s.process e (by simpa using hrestart)
    generalize (signals.emitted s.process e).map (fun n => (n.1, statusString n.2)) = ns at hannounces
    split
    · next hconnected =>
      refine ⟨h.announced.append hannounces, ?_, fun hnot => ?_, fun load hload jobs n hlisting => ?_⟩
      · rw [List.length_append, h.sent]
        exact Nat.add_assoc _ _ _
      · exact absurd (hconnected.symm.trans hnot) (by decide)
      · obtain ⟨hn, hcurrent⟩ := h.loads load hload jobs n hlisting
        refine ⟨Nat.le_add_right_of_le hn, fun hle => ?_⟩
        have hlength : n - s.handled ≤ s.pending.length := by
          rw [h.sent] at hn
          omega
        dsimp only
        rw [List.drop_append_of_le_length hlength]
        exact (hcurrent hle).append hannounces
    · next hconnected =>
      have hpending := h.lost (by simpa using hconnected)
      refine ⟨?_, ?_, fun _ => hpending, fun load hload jobs n hlisting => ?_⟩
      · dsimp only
        rw [hpending]
        exact announced_nil _
      · dsimp only
        rw [hpending]
        rfl
      · obtain ⟨hn, hcurrent⟩ := h.loads load hload jobs n hlisting
        refine ⟨Nat.le_add_right_of_le hn, fun hle => ?_⟩
        -- Nothing was broadcast since the listing, so nothing has changed.
        have hnone : ns = [] := List.length_eq_zero_iff.mp (by dsimp only at hle; omega)
        have hold := hcurrent (by rw [h.sent] at hle; dsimp only at hle; omega)
        rw [hpending, List.drop_nil] at hold
        rw [hnone] at hannounces
        dsimp only
        rw [hpending, List.drop_nil]
        exact hold.append hannounces

theorem process_happens (signals : StatusSignals L) (s : Dashboard L) (e : Process.Happening) :
    (s.happens signals e).process = (Process.machine L).next s.process e := by
  rw [Dashboard.happens]
  dsimp only
  split
  · rfl
  · split
    · rfl
    · rfl

/-! ### Listings -/

theorem listedJob_jobEntry (st : State L) (job : TiBackupJob) :
    listedJob (.obj (Api.jobEntry st job)) = (job.name, Api.jobStatus st job.name) := rfl

/-- The answer to a request for the jobs lists them with their statuses. -/
theorem current_listing {p : Process L} {req : Request} {m : Moment} {c : Call} {r : Response}
    (h : (Process.machine L).out p (.main (.request ⟨.getJobs, req, m⟩)) = some (c, r))
    (hok : r.status = .ok) :
    Current ((Process.machine L).next p (.main (.request ⟨.getJobs, req, m⟩))).status []
      (r.body.toArray.map listedJob) := by
  have hout : Process.ready ⟨.getJobs, req, m⟩ (Api.getJobs req m p.state).2 = some (c, r) := h
  have hnext : ((Process.machine L).next p (.main (.request ⟨.getJobs, req, m⟩))).status =
      Api.jobStatus (Api.getJobs req m p.state).1 := rfl
  rw [hnext]
  by_cases hlive : ∃ session, LiveSession p.state m.now req session
  · obtain ⟨session, hsession⟩ := hlive
    rw [Api.getJobs, Api.withAuth_of_live hsession] at hout ⊢
    obtain ⟨-, rfl⟩ := Prod.mk.inj (Option.some.inj hout)
    have hlisted : (jsonResp (.arr ((Api.allJobs (p.state.validated m.now req)).map fun job =>
        .obj (Api.jobEntry (p.state.validated m.now req) job)))).body.toArray.map listedJob =
        (Api.allJobs (p.state.validated m.now req)).map fun job =>
          (job.name, Api.jobStatus (p.state.validated m.now req) job.name) := by
      show List.map listedJob (List.map _ _) = _
      rw [List.map_map]
      exact List.map_congr_left fun job _ => listedJob_jobEntry _ job
    rw [hlisted]
    constructor
    · rw [List.map_map]
      exact L.jobs.items_key_nodup _
    · intro e he
      obtain ⟨job, -, rfl⟩ := List.mem_map.mp he
      rfl
  · rw [Api.getJobs, Api.withAuth_of_not_live (not_exists.mp hlive)] at hout
    obtain ⟨-, rfl⟩ := Prod.mk.inj (Option.some.inj hout)
    cases hok

/-- A listing is entered for a load. -/
theorem Synced.list (h : Synced s) (i : Nat) (req : Request) (m : Moment) :
    Synced (s.list signals i req m) := by
  have hsynced : Synced (s.happens signals (.main (.request ⟨.getJobs, req, m⟩))) := h.happens _
  rw [Dashboard.list]
  split
  · next c r hout =>
    split
    · next hok =>
      refine ⟨hsynced.announced, hsynced.sent, hsynced.lost, fun load hload jobs n hlisting => ?_⟩
      rcases List.mem_or_eq_of_mem_set hload with hload | rfl
      · exact hsynced.loads load hload jobs n hlisting
      · obtain ⟨rfl, rfl⟩ := Prod.mk.inj (Option.some.inj hlisting)
        refine ⟨Nat.le_refl _, fun _ => ?_⟩
        have hcurrent := current_listing hout hok
        rw [← process_happens signals] at hcurrent
        dsimp only
        rwa [List.drop_of_length_le (by rw [hsynced.sent]; omega)]
    · exact hsynced.eraseLoad i
  · exact hsynced

/-! ### Runs -/

/-- What every event keeps. -/
theorem Synced.step (h : Synced s) (e : DashboardEvent) : Synced (step signals s e) := by
  cases e with
  | daemon e => exact h.happens e
  | loadDashboard =>
    refine ⟨h.announced, h.sent, h.lost, fun load hload jobs n hlisting => ?_⟩
    rcases List.mem_append.mp hload with hload | hload
    · exact h.loads load hload jobs n hlisting
    · rw [List.mem_singleton.mp hload] at hlisting
      cases hlisting
  | list i req m =>
    rw [Dashboard.step]
    split
    · exact h.list i req m
    · exact h
  | loaded i =>
    rw [Dashboard.step]
    split
    · have herase := h.eraseLoad i
      exact ⟨herase.announced, herase.sent, herase.lost, herase.loads⟩
    · exact h
  | failed i => exact h.eraseLoad i
  | accepted =>
    have hlost := h.disconnect
    exact ⟨hlost.announced, hlost.sent, fun _ => rfl, hlost.loads⟩
  | closed => exact h.disconnect
  | message =>
    rw [Dashboard.step]
    split
    · exact h
    · next m pending hpending =>
      have hannounced := h.announced
      have hsent := h.sent
      rw [hpending] at hannounced hsent
      refine ⟨hannounced.tail, ?_, fun hnot => ?_, fun load hload jobs n hlisting => ?_⟩
      · rw [List.length_cons] at hsent
        dsimp only
        omega
      · have hnil := h.lost hnot
        rw [hpending] at hnil
        cases hnil
      · obtain ⟨hn, hcurrent⟩ := h.loads load hload jobs n hlisting
        refine ⟨hn, fun hle => ?_⟩
        dsimp only at hle ⊢
        have hold := hcurrent (by omega)
        -- The message is not one of those that are newer than the listing.
        obtain ⟨d, hd⟩ : ∃ d, n - s.handled = d + 1 := ⟨n - s.handled - 1, by omega⟩
        rw [hpending, hd, List.drop_succ_cons] at hold
        rwa [show n - (s.handled + 1) = d by omega]

theorem synced_run (h : Synced s) (es : List DashboardEvent) :
    Synced ((machine signals).run s es) :=
  invariant_run (P := fun _ _ => True) (fun _ e hs _ => hs.step e) h
    (along_of_forall_mem (P := fun _ => True) (fun _ _ => trivial) s)

/-- No message that was sent after the jobs of a load were listed has been handled or lost. -/
def Timely (s : Dashboard L) (i : Nat) : Prop :=
  ∀ jobs n, s.loads[i]? = some { listing := some (jobs, n) } → s.handled ≤ n

/-- The web socket is open and stays open, and a load that ends is timely. -/
def Steady (s : Dashboard L) (e : DashboardEvent) : Prop :=
  s.connected = true ∧ match e with
    | .accepted | .closed => False
    | .daemon e => Process.isRestart e = false
    | .loaded i => Timely s i
    | _ => True

/-- What is shown is up to date, but for the messages under way. -/
def Caught (s : Dashboard L) : Prop := Synced s ∧ Current s.process.status s.pending s.jobs

/-- The end of a timely load. -/
theorem caught_loaded (h : Synced s) {i n : Nat} {jobs : List (String × String)}
    (hload : s.loads[i]? = some { listing := some (jobs, n) }) (htimely : Timely s i) :
    Caught (step signals s (.loaded i)) := by
  have hcurrent := (h.loads _ (List.mem_of_getElem? hload) jobs n rfl).2 (htimely jobs n hload)
  refine ⟨h.step _, ?_⟩
  rw [Dashboard.step, hload]
  exact current_of_listing h.announced hcurrent

theorem Caught.happens (h : Caught s) {e : Process.Happening} (hconnected : s.connected = true)
    (hrestart : Process.isRestart e = false) : Caught (s.happens signals e) := by
  refine ⟨h.1.happens e, ?_⟩
  rw [Dashboard.happens]
  dsimp only
  rw [if_neg (by simp [hrestart]), if_pos hconnected]
  exact h.2.append (signals.announces s.process e hrestart)

theorem Caught.message (h : Caught s) : Caught (step signals s .message) := by
  refine ⟨h.1.step .message, ?_⟩
  have hcurrent := h.2
  rw [Dashboard.step]
  split
  · exact hcurrent
  · next m pending hpending =>
    rw [hpending] at hcurrent
    dsimp only
    rw [setStatus_eq]
    exact hcurrent.assign

/-- **One event.** -/
theorem Caught.step (h : Caught s) {e : DashboardEvent} (he : Steady s e) :
    Caught (step signals s e) := by
  obtain ⟨hconnected, he⟩ := he
  cases e with
  | daemon e => exact h.happens hconnected he
  | accepted | closed => exact he.elim
  | loadDashboard => exact ⟨h.1.step .loadDashboard, h.2⟩
  | failed i => exact ⟨h.1.eraseLoad i, h.2⟩
  | loaded i =>
    cases hload : s.loads[i]? with
    | none =>
      rw [Dashboard.step, hload]
      exact h
    | some load =>
      obtain ⟨_ | ⟨jobs, n⟩⟩ := load
      · rw [Dashboard.step, hload]
        exact h
      · exact caught_loaded h.1 hload he
  | list i req m =>
    have hserved : Caught (s.happens signals (.main (.request ⟨.getJobs, req, m⟩))) :=
      h.happens hconnected rfl
    refine ⟨h.1.step _, ?_⟩
    rw [Dashboard.step]
    split
    · rw [Dashboard.list]
      split
      · split
        · exact hserved.2
        · exact hserved.2
      · exact hserved.2
    · exact h.2
  | message => exact h.message

theorem caught_run (h : Caught s) {es : List DashboardEvent}
    (hes : (machine signals).Along Steady s es) : Caught ((machine signals).run s es) :=
  invariant_run (fun _ _ hs he => hs.step he) h hes

/-- All messages under way arrive. -/
def arrivals (s : Dashboard L) : List DashboardEvent := List.replicate s.pending.length .message

theorem Caught.arrived (h : Caught s) : ∀ j ∈ ((machine signals).run s (arrivals s)).jobs,
    j.2 = s.process.status j.1 := by
  rw [arrivals]
  generalize hn : s.pending.length = n
  induction n generalizing s with
  | zero =>
    intro j hj
    have hfinal := h.2.final j hj
    rwa [List.length_eq_zero_iff.mp hn, final_nil] at hfinal
  | succ n ih =>
    obtain ⟨m, ms, hpending⟩ := List.exists_cons_of_length_eq_add_one hn
    have hnext : (machine signals).next s .message = Dashboard.step signals s .message := rfl
    have hmessage : Caught (Dashboard.step signals s .message) := h.message
    have hprocess : (Dashboard.step signals s .message).process = s.process := by
      rw [Dashboard.step, hpending]
    have hlength : (Dashboard.step signals s .message).pending.length = n := by
      rw [Dashboard.step, hpending]
      rw [hpending, List.length_cons] at hn
      exact Nat.succ.inj hn
    rw [List.replicate_succ, run_cons, hnext, ← hprocess]
    exact ih hmessage hlength

/-- **The dashboard catches up with the daemon.** A load ends, and no message that was sent
after its jobs were listed has been handled or lost by then. If the web socket of the page is
open from then on, and later loads are timely, too, the page will show every job with the
status that the daemon has now, as soon as the messages under way have arrived. -/
theorem dashboard_catches_up (signals : StatusSignals L) (p : Process L) {i n : Nat}
    {jobs : List (String × String)} {pre post : List DashboardEvent}
    (hload : ((machine signals).run (start p) pre).loads[i]? = some { listing := some (jobs, n) })
    (htimely : Timely ((machine signals).run (start p) pre) i)
    (hpost : (machine signals).Along Steady
      ((machine signals).run (start p) (pre ++ [.loaded i])) post) :
    let s := (machine signals).run (start p) (pre ++ [.loaded i] ++ post)
    ∀ j ∈ ((machine signals).run s (arrivals s)).jobs, j.2 = s.process.status j.1 := by
  have hsynced : Synced ((machine signals).run (start p) pre) := synced_run (synced_start p) pre
  have hcaught : Caught (step signals ((machine signals).run (start p) pre) (.loaded i)) :=
    caught_loaded hsynced hload htimely
  have hrun : (machine signals).run (start p) (pre ++ [.loaded i]) =
      step signals ((machine signals).run (start p) pre) (.loaded i) := by
    rw [run_append]
    rfl
  rw [hrun] at hpost
  rw [run_append, hrun]
  exact (caught_run hcaught hpost).arrived

/-! ### A run of the reference daemon -/

/-- The names with a status. -/
def named (p : Process Reference.library) : List String :=
  (Reference.library.manager.statuses p.state.manager).map Prod.fst

theorem status_of_not_named {p : Process Reference.library} {n : String} (h : n ∉ named p) :
    p.status n = statusString .standby :=
  congrArg (fun s : Option BackupStatus => statusString (s.getD .standby))
    (StringMap.get_of_not_mem_keys h)

/-- The names whose status changes with an event. -/
def changed (p p' : Process Reference.library) : List String :=
  (named p ++ named p').filter fun n => p.status n ≠ p'.status n

theorem status_of_not_changed {p p' : Process Reference.library} {n : String}
    (h : n ∉ changed p p') : p.status n = p'.status n := by
  by_contra hne
  by_cases hnamed : n ∈ named p ++ named p'
  · exact h (List.mem_filter.mpr ⟨hnamed, decide_eq_true hne⟩)
  · obtain ⟨hp, hp'⟩ := not_or.mp (fun hor => hnamed (List.mem_append.mpr hor))
    exact hne ((status_of_not_named hp).trans (status_of_not_named hp').symm)

/-- The reference manager signals them. -/
def referenceSignals : StatusSignals Reference.library where
  emitted p e :=
    let p' := (Process.machine _).next p e
    (changed p p').map fun n => (n, Reference.library.manager.getBackupStatus p'.state.manager n)
  announces p e _ n := by
    rw [List.map_map]
    show Replica.final ((changed p _).map fun n => (n, ((Process.machine _).next p e).status n)) n
      (p.status n) = _
    rw [Replica.final, Replica.last_map]
    split
    · rfl
    · next hn => exact status_of_not_changed hn

/-- A daemon with one job. -/
def oneJob : Process Reference.library where
  main := { state := Api.saveBackupJob Reference.initial { name := "nightly" }
            schedulerState := ∅ }
  pool := []

/-- A page that is loaded, -/
def opening : List DashboardEvent :=
  [.accepted, .loadDashboard, .list 0 (Reference.request .null) (Reference.moment "")]

/-- and a backup that is started afterwards. -/
def started : List DashboardEvent :=
  [.daemon (.main (.request ⟨.startJob "nightly", Reference.request .null, Reference.moment ""⟩))]

theorem listed_opening : ((machine referenceSignals).run (start oneJob) opening).loads[0]? =
    some { listing := some ([("nightly", "standby")], 0) } := by
  rfl

/-- The message that it runs is under way, and once it has arrived, the page shows that. -/
theorem dashboard_catches_up_oneJob :
    let s := (machine referenceSignals).run (start oneJob) (opening ++ [.loaded 0] ++ started)
    s.jobs = [("nightly", "standby")] ∧ s.pending = [("nightly", "running")] ∧
      ∀ j ∈ ((machine referenceSignals).run s (arrivals s)).jobs, j.2 = s.process.status j.1 :=
  ⟨rfl, by decide +kernel, dashboard_catches_up referenceSignals oneJob listed_opening
    (fun _ _ _ => Nat.zero_le _) ⟨⟨rfl, rfl⟩, trivial⟩⟩

end Dashboard

end TiBackup
