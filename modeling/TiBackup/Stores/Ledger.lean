import TiBackup.Stores.Runs
import TiBackup.Stores.SshTest
import Mathlib.Logic.Function.Basic

/-!
# TiBackup.Stores.Ledger

**The stores against three tables.** To its clients the daemon is three tables, of jobs,
PBS servers and SSH servers, that change one record at a time (`Tables.apply`). Which
change a request asks for can be read off the request and the tables
(`requested`), and whether it was made off the answer: an ok is a change that was made,
anything else is one that was not.

So a run leaves a ledger of changes behind, and the stores at its end are the ledger
applied to the stores at its beginning (`tables_run`), whatever else happened in between.
The one entry that no answered request stands for is the host key a worker pins.
-/

namespace TiBackup

open Lib Lib.Machine

variable {L : Library}

/-- What the three stores hold. -/
@[ext]
structure Tables where
  jobs : String → Option TiBackupJob
  pbs : String → Option PBServer
  ssh : String → Option SSHServer

/-- A change of one record. -/
inductive Write
  /-- The job, in the place of the one that had the name `old`, if there was one. -/
  | putJob (old : Option String) (job : TiBackupJob)
  | dropJob (name : String)
  | putPbs (srv : PBServer)
  | dropPbs (uuid : String)
  | putSsh (srv : SSHServer)
  | dropSsh (uuid : String)

namespace Tables

/-- Make a change. -/
def apply (T : Tables) : Write → Tables
  | .putJob old job =>
    { T with
      jobs := fun k => if k = job.name then some job else if some k = old then none else T.jobs k }
  | .dropJob name => { T with jobs := Function.update T.jobs name none }
  | .putPbs srv => { T with pbs := Function.update T.pbs srv.uuid (some srv) }
  | .dropPbs uuid => { T with pbs := Function.update T.pbs uuid none }
  | .putSsh srv => { T with ssh := Function.update T.ssh srv.uuid (some srv) }
  | .dropSsh uuid => { T with ssh := Function.update T.ssh uuid none }

/-- Make a change if there is one. -/
def applyIf (T : Tables) (w : Option Write) : Tables := (w.map T.apply).getD T

@[simp] theorem applyIf_none (T : Tables) : T.applyIf none = T := rfl

@[simp] theorem applyIf_some (T : Tables) (w : Write) : T.applyIf (some w) = T.apply w := rfl

end Tables

namespace Api

/-- The tables of a state. -/
def tables (st : State L) : Tables where
  jobs := getJobByName st
  pbs := getPbsByUuid st
  ssh := getSshByUuid st

theorem tables_congr {st st' : State L} (hjobs : st'.jobs = st.jobs) (hpbs : st'.pbs = st.pbs)
    (hssh : st'.ssh = st.ssh) : tables st' = tables st := by
  simp only [tables, Tables.mk.injEq]
  exact ⟨funext fun k => congrArg (L.jobs.find · k) hjobs,
    funext fun k => congrArg (L.pbs.find · k) hpbs, funext fun k => congrArg (L.ssh.find · k) hssh⟩

theorem tables_of_sameButSessions {st st' : State L} (h : State.SameButSessions st st') :
    tables st' = tables st := tables_congr (h.part .jobs) (h.part .pbs) (h.part .ssh)

/-- The change a request asks for. A server that is put keeps the secrets it does not
bring along. -/
def requested (T : Tables) (c : Call) : Option Write :=
  match c.route with
  | .postJob => some (.putJob none (bodyJob c.req))
  | .putJob name => some (.putJob (some name)
      { bodyJob c.req with name := newJobName name (bodyJob c.req) })
  | .deleteJob name => some (.dropJob name)
  | .postPbs => some (.putPbs (JsonMap.pbServerFromJson c.moment.uuid (parseBody c.req)))
  | .putPbs uuid =>
    (T.pbs uuid).map fun existing => .putPbs (putPbsRecord uuid existing c.moment c.req)
  | .deletePbs uuid => some (.dropPbs uuid)
  | .postSsh => some (.putSsh (JsonMap.sshServerFromJson c.moment.uuid (parseBody c.req)))
  | .putSsh uuid =>
    (T.ssh uuid).map fun existing => .putSsh (putSshRecord uuid existing c.moment c.req)
  | .deleteSsh uuid => some (.dropSsh uuid)
  | _ => none

instance (r : State L × Reply) : Decidable (Answered r) :=
  inferInstanceAs (Decidable (replyStatus r.2 = some .ok))

/-! ### One change of one store -/

section

variable (st : State L)

theorem tables_saveBackupJob (job : TiBackupJob) :
    tables (saveBackupJob st job) = (tables st).apply (.putJob none job) := by
  refine Tables.ext (funext fun k => ?_) rfl rfl
  refine (L.jobs.find_save st.jobs job k).trans ?_
  simp only [Tables.apply, tables, reduceCtorEq, if_false]
  rfl

theorem tables_savePbs (srv : PBServer) :
    tables (savePbs st srv) = (tables st).apply (.putPbs srv) := by
  refine Tables.ext rfl (funext fun k => ?_) rfl
  exact (L.pbs.find_save st.pbs srv k).trans (Function.update_apply _ _ _ k).symm

theorem tables_saveSsh (srv : SSHServer) :
    tables (saveSsh st srv) = (tables st).apply (.putSsh srv) := by
  refine Tables.ext rfl rfl (funext fun k => ?_)
  exact (L.ssh.find_save st.ssh srv k).trans (Function.update_apply _ _ _ k).symm

theorem tables_removeJob (name : String) :
    tables { st with jobs := (L.jobs.remove st.jobs name).1 } =
      (tables st).apply (.dropJob name) := by
  refine Tables.ext (funext fun k => ?_) rfl rfl
  exact (L.jobs.find_remove st.jobs name k).trans (Function.update_apply _ _ _ k).symm

theorem tables_removePbs (uuid : String) :
    tables { st with pbs := (L.pbs.remove st.pbs uuid).1 } =
      (tables st).apply (.dropPbs uuid) := by
  refine Tables.ext rfl (funext fun k => ?_) rfl
  exact (L.pbs.find_remove st.pbs uuid k).trans (Function.update_apply _ _ _ k).symm

theorem tables_removeSsh (uuid : String) :
    tables { st with ssh := (L.ssh.remove st.ssh uuid).1 } =
      (tables st).apply (.dropSsh uuid) := by
  refine Tables.ext rfl rfl (funext fun k => ?_)
  exact (L.ssh.find_remove st.ssh uuid k).trans (Function.update_apply _ _ _ k).symm

end

/-- A job that was put. -/
theorem tables_of_putJob {st st' : State L} {name new : String} {job : TiBackupJob}
    (h : PutJob st st' name new job) :
    tables st' = (tables st).apply (.putJob (some name) { job with name := new }) := by
  have hpbs : st'.pbs = st.pbs := by rw [h.others]
  have hssh : st'.ssh = st.ssh := by rw [h.others]
  refine Tables.ext (funext fun k => ?_) ?_ ?_
  · simp only [tables, Tables.apply, h.find, Option.some.injEq]
  · exact funext fun k => congrArg (L.pbs.find · k) hpbs
  · exact funext fun k => congrArg (L.ssh.find · k) hssh

/-! ### One request -/

/-- What a request did to the tables, given that it was answered and did something, or was
rejected. -/
theorem tables_of_cases {r : State L × Reply} {st : State L} {w : Option Write} {P : Prop}
    (h : (Answered r ∧ tables r.1 = (tables st).applyIf w) ∨ P ∧ Rejected st r) :
    tables r.1 = if Answered r then (tables st).applyIf w else tables st := by
  rcases h with ⟨hanswered, hdone⟩ | ⟨-, hno, hsame⟩
  · rw [if_pos hanswered, hdone]
  · rw [if_neg hno, tables_of_sameButSessions hsame]

/-- Most routes have nothing to do with the stores. -/
theorem tables_of_not_writes {c : Call} (hjobs : c.route.writes .jobs = false)
    (hpbs : c.route.writes .pbs = false) (hssh : c.route.writes .ssh = false)
    (hasked : ∀ T, requested T c = none) (st : State L) : tables (serve c st).1 =
      if Answered (serve c st) then (tables st).applyIf (requested (tables st) c)
      else tables st := by
  rw [hasked, Tables.applyIf_none, ite_self]
  exact tables_congr (handle_frame hjobs c.req c.moment st) (handle_frame hpbs c.req c.moment st)
    (handle_frame hssh c.req c.moment st)

/-- **A request makes the change it asks for exactly when it is answered with ok.** -/
theorem tables_serve (c : Call) (st : State L) : tables (serve c st).1 =
    if Answered (serve c st) then (tables st).applyIf (requested (tables st) c)
    else tables st := by
  obtain ⟨r, req, m⟩ := c
  cases r with
  | postJob =>
    refine tables_of_cases ((postJob_cases req m st).imp_left ?_)
    rintro ⟨-, hrun⟩
    have hrun : serve ⟨.postJob, req, m⟩ st = _ := hrun
    rw [hrun]
    exact ⟨rfl, tables_saveBackupJob (st.validated m.now req) (bodyJob req)⟩
  | putJob name =>
    refine tables_of_cases (P := True) ((putJob_cases name req m st).imp ?_ fun h => ⟨trivial, h⟩)
    rintro ⟨hanswered, -, -, hput⟩
    exact ⟨hanswered, tables_of_putJob hput⟩
  | deleteJob name =>
    refine tables_of_cases ((deleteJob_cases name req m st).imp_left ?_)
    rintro ⟨-, hrun⟩
    have hrun : serve ⟨.deleteJob name, req, m⟩ st = _ := hrun
    rw [hrun]
    exact ⟨rfl, tables_removeJob (st.validated m.now req) name⟩
  | postPbs =>
    refine tables_of_cases ((postPbs_cases req m st).imp_left ?_)
    rintro ⟨-, hrun⟩
    have hrun : serve ⟨.postPbs, req, m⟩ st = _ := hrun
    rw [hrun]
    exact ⟨rfl, tables_savePbs (st.validated m.now req) _⟩
  | putPbs uuid =>
    refine tables_of_cases ((putPbs_cases uuid req m st).imp_left ?_)
    rintro ⟨existing, -, hfound, hrun⟩
    have hrun : serve ⟨.putPbs uuid, req, m⟩ st = _ := hrun
    have hasked : requested (tables st) ⟨.putPbs uuid, req, m⟩ =
        some (.putPbs (putPbsRecord uuid existing m req)) := congrArg (Option.map _) hfound
    rw [hrun, hasked]
    exact ⟨rfl, tables_savePbs (st.validated m.now req) _⟩
  | deletePbs uuid =>
    refine tables_of_cases ((deletePbs_cases uuid req m st).imp_left ?_)
    rintro ⟨-, hrun⟩
    have hrun : serve ⟨.deletePbs uuid, req, m⟩ st = _ := hrun
    rw [hrun]
    exact ⟨rfl, tables_removePbs (st.validated m.now req) uuid⟩
  | postSsh =>
    refine tables_of_cases ((postSsh_cases req m st).imp_left ?_)
    rintro ⟨-, hrun⟩
    have hrun : serve ⟨.postSsh, req, m⟩ st = _ := hrun
    rw [hrun]
    exact ⟨rfl, tables_saveSsh (st.validated m.now req) _⟩
  | putSsh uuid =>
    refine tables_of_cases ((putSsh_cases uuid req m st).imp_left ?_)
    rintro ⟨existing, -, hfound, hrun⟩
    have hrun : serve ⟨.putSsh uuid, req, m⟩ st = _ := hrun
    have hasked : requested (tables st) ⟨.putSsh uuid, req, m⟩ =
        some (.putSsh (putSshRecord uuid existing m req)) := congrArg (Option.map _) hfound
    rw [hrun, hasked]
    exact ⟨rfl, tables_saveSsh (st.validated m.now req) _⟩
  | deleteSsh uuid =>
    refine tables_of_cases ((deleteSsh_cases uuid req m st).imp_left ?_)
    rintro ⟨-, hrun⟩
    have hrun : serve ⟨.deleteSsh uuid, req, m⟩ st = _ := hrun
    rw [hrun]
    exact ⟨rfl, tables_removeSsh (st.validated m.now req) uuid⟩
  | _ => exact tables_of_not_writes rfl rfl rfl (fun _ => rfl) st

/-! ### Workers -/

/-- The change a worker makes: the host key it pins. -/
def pinned (w : Work) (st : State L) : Option Write :=
  match w with
  | .sshTest srv uuid =>
    let tr := L.system.sshTest st.host srv
    if pins uuid tr then some (.putSsh { srv with uuid := uuid, hostkey := tr.hostkey }) else none
  | _ => none

theorem tables_runWork (w : Work) (st : State L) :
    tables (runWork w st).1 = (tables st).applyIf (pinned w st) := by
  cases w with
  | sshTest srv uuid =>
    refine Tables.ext ?_ ?_ (funext fun k => ?_)
    · have hjobs := runWork_keeps (q := .jobs) (by decide) (by decide) (.sshTest srv uuid) st
      simp only [pinned]
      split <;> exact funext fun k => congrArg (L.jobs.find · k) hjobs
    · have hpbs := runWork_keeps (q := .pbs) (by decide) (by decide) (.sshTest srv uuid) st
      simp only [pinned]
      split <;> exact funext fun k => congrArg (L.pbs.find · k) hpbs
    · refine (find_sshTestDone srv uuid (L.system.sshTest st.host srv) st k).trans ?_
      simp only [pinned]
      by_cases hpins : pins uuid (L.system.sshTest st.host srv) = true
      · rw [if_pos hpins, Tables.applyIf_some]
        simp [hpins, Tables.apply, Function.update_apply, tables]
      · rw [if_neg hpins, Tables.applyIf_none, if_neg fun h => hpins h.1]
        rfl
  | _ => rfl

/-! ### What is shown -/

/-- The answers to the routes that show one record; `status` is what the jobs are doing. -/
def shownRecord (T : Tables) (status : String → String) : Route → Option Response
  | .getJob name => some <| match T.jobs name with
    | none => errResp "job not found" .notFound
    | some job => jsonResp (.obj (JsonMap.jobToJson job ++ [("status", .str (status name))]))
  | .getPbs uuid => some <| match T.pbs uuid with
    | none => errResp "server not found" .notFound
    | some srv => jsonResp (.obj (JsonMap.pbServerToJson srv false))
  | .getSsh uuid => some <| match T.ssh uuid with
    | none => errResp "server not found" .notFound
    | some srv => jsonResp (.obj (JsonMap.sshServerToJson srv false))
  | _ => none

theorem serve_shownRecord {st : State L} {c : Call} {s : Session} {answer : Response}
    (hlive : LiveSession st c.moment.now c.req s)
    (h : shownRecord (tables st) (jobStatus st) c.route = some answer) :
    (serve c st).2 = .now answer := by
  obtain ⟨r, req, m⟩ := c
  cases r with
  | getJob name =>
    obtain rfl := Option.some.inj h
    show (getJob name req m st).2 = _
    rw [getJob, withAuth_of_live hlive, reads]
    simp only [tables, jobResponse, jobStatus]
    cases hfound : getJobByName st name with
    | none =>
      have hfound : getJobByName (st.validated m.now req) name = none := hfound
      rw [hfound]
    | some job =>
      have hfound : getJobByName (st.validated m.now req) name = some job := hfound
      rw [hfound]
      rfl
  | getPbs uuid =>
    obtain rfl := Option.some.inj h
    show (getPbs uuid req m st).2 = _
    rw [getPbs, withAuth_of_live hlive, reads]
    simp only [tables]
    cases hfound : getPbsByUuid st uuid with
    | none =>
      have hfound : getPbsByUuid (st.validated m.now req) uuid = none := hfound
      rw [hfound]
    | some srv =>
      have hfound : getPbsByUuid (st.validated m.now req) uuid = some srv := hfound
      rw [hfound]
  | getSsh uuid =>
    obtain rfl := Option.some.inj h
    show (getSsh uuid req m st).2 = _
    rw [getSsh, withAuth_of_live hlive, reads]
    simp only [tables]
    cases hfound : getSshByUuid st uuid with
    | none =>
      have hfound : getSshByUuid (st.validated m.now req) uuid = none := hfound
      rw [hfound]
    | some srv =>
      have hfound : getSshByUuid (st.validated m.now req) uuid = some srv := hfound
      rw [hfound]
  | _ => cases h

/-- The answer lists every record of a table once. -/
def ListsAll {ρ : Type} (table : String → Option ρ) (key : ρ → String) (entry : ρ → Json.Fields)
    (reply : Reply) : Prop :=
  ∃ records : List ρ, (records.map key).Nodup ∧
    (∀ r, r ∈ records ↔ table (key r) = some r) ∧
    reply = .now (jsonResp (.arr (records.map fun r => .obj (entry r))))

theorem serve_lists {st : State L} {req : Request} {m : Moment} {s : Session}
    (hlive : LiveSession st m.now req s) :
    ListsAll (tables st).jobs TiBackupJob.name (jobEntry st) (serve ⟨.getJobs, req, m⟩ st).2 ∧
    ListsAll (tables st).pbs PBServer.uuid (JsonMap.pbServerToJson · false)
      (serve ⟨.getPbsList, req, m⟩ st).2 ∧
    ListsAll (tables st).ssh SSHServer.uuid (JsonMap.sshServerToJson · false)
      (serve ⟨.getSshList, req, m⟩ st).2 := by
  refine ⟨⟨allJobs st, KeyedStore.items_key_nodup st.jobs, fun r => KeyedStore.mem_items, ?_⟩,
    ⟨L.pbs.items st.pbs, KeyedStore.items_key_nodup st.pbs, fun r => KeyedStore.mem_items, ?_⟩,
    ⟨L.ssh.items st.ssh, KeyedStore.items_key_nodup st.ssh, fun r => KeyedStore.mem_items, ?_⟩⟩
  · show (getJobs req m st).2 = _
    rw [getJobs, withAuth_of_live hlive]
    rfl
  · show (getPbsList req m st).2 = _
    rw [getPbsList, withAuth_of_live hlive]
    rfl
  · show (getSshList req m st).2 = _
    rw [getSshList, withAuth_of_live hlive]
    rfl

end Api

namespace Process

/-- The change an event makes. -/
def written (p : Process L) : Happening → Option Write
  | .main (.request c) =>
    if Api.Answered (Api.serve c p.state) then Api.requested (Api.tables p.state) c else none
  | .done i => p.pool[i]?.bind fun t => Api.pinned t.work p.state
  | _ => none

/-- The changes of a run, in order. -/
def ledger : Process L → List Happening → List Write
  | _, [] => []
  | p, e :: es => (written p e).toList ++ ledger ((machine L).next p e) es

theorem tables_next_of_not_writes {e : Happening} (hjobs : writes e .jobs = false)
    (hpbs : writes e .pbs = false) (hssh : writes e .ssh = false) (p : Process L) :
    Api.tables ((machine L).next p e).state = Api.tables p.state :=
  Api.tables_congr (same_next hjobs p) (same_next hpbs p) (same_next hssh p)

/-- **One event.** -/
theorem tables_next (p : Process L) (e : Happening) :
    Api.tables ((machine L).next p e).state = (Api.tables p.state).applyIf (written p e) := by
  cases e with
  | main e =>
    cases e with
    | request c =>
      rw [state_request, Api.tables_serve, written]
      split <;> rfl
    | _ => exact tables_next_of_not_writes rfl rfl rfl p
  | handshake cookie now => rfl
  | done i =>
    cases htask : p.pool[i]? with
    | none =>
      rw [next_done_of_none p htask, written, htask]
      rfl
    | some t =>
      rw [next_done p htask, written, htask]
      exact Api.tables_runWork t.work p.state

theorem tables_run (p : Process L) (es : List Happening) :
    Api.tables ((machine L).run p es).state =
      (ledger p es).foldl Tables.apply (Api.tables p.state) := by
  induction es generalizing p with
  | nil => rfl
  | cons e es ih =>
    rw [run_cons, ih, tables_next, ledger, List.foldl_append]
    cases written p e <;> rfl

/-- **The daemon is three tables.** After every run the stores are the changes that were
answered with ok, and the host keys that were pinned, made one after the other; and a
client with a session is shown the tables, record by record and as a whole. -/
theorem stores_are_tables (p : Process L) (es : List Happening) :
    Api.tables ((machine L).run p es).state =
      (ledger p es).foldl Tables.apply (Api.tables p.state) ∧
    ∀ req m s, LiveSession ((machine L).run p es).state m.now req s →
      (∀ r answer, Api.shownRecord (Api.tables ((machine L).run p es).state)
        (Api.jobStatus ((machine L).run p es).state) r = some answer →
        (Api.serve ⟨r, req, m⟩ ((machine L).run p es).state).2 = .now answer) ∧
      Api.ListsAll (Api.tables ((machine L).run p es).state).jobs TiBackupJob.name
        (Api.jobEntry ((machine L).run p es).state)
        (Api.serve ⟨.getJobs, req, m⟩ ((machine L).run p es).state).2 ∧
      Api.ListsAll (Api.tables ((machine L).run p es).state).pbs PBServer.uuid
        (JsonMap.pbServerToJson · false)
        (Api.serve ⟨.getPbsList, req, m⟩ ((machine L).run p es).state).2 ∧
      Api.ListsAll (Api.tables ((machine L).run p es).state).ssh SSHServer.uuid
        (JsonMap.sshServerToJson · false)
        (Api.serve ⟨.getSshList, req, m⟩ ((machine L).run p es).state).2 := by
  refine ⟨tables_run p es, fun req m s hlive => ⟨fun r answer h => ?_, Api.serve_lists hlive⟩⟩
  exact Api.serve_shownRecord (c := ⟨r, req, m⟩) hlive h

end Process

end TiBackup
