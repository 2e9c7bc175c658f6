import TiBackup.Stores.Frame
import TiBackup.Stores.Secrecy

/-!
# TiBackup.Stores.Invariants

**What the stores never hold.** The create routes check a record before they store it;
what matters is that no other request undoes the check.

For jobs it holds (`jobs_stay_valid`): POST, PUT and DELETE keep names apart and stored
jobs valid, and a request that is refused leaves the store as it was. For servers it
does not: PUT replaces the record with the fields of the body and looks only at the
uuid, so a stored server keeps its required fields exactly as long as every PUT brings
them along (`servers_valid_iff`).
-/

namespace TiBackup

open Lib Lib.Machine

variable {L : Library}

/-- A status 4xx. -/
def StatusCode.isClientError : StatusCode → Bool
  | .badRequest | .unauthorized | .forbidden | .notFound | .conflict | .tooManyRequests => true
  | .ok | .internalServerError | .badGateway => false

namespace Api

/-- The request is answered with a status 4xx. -/
def ClientError (reply : Reply) : Prop :=
  ∃ status, replyStatus reply = some status ∧ status.isClientError = true

theorem not_answered_of_clientError {r : State L × Reply} (h : ClientError r.2) : ¬Answered r := by
  obtain ⟨status, hstatus, herror⟩ := h
  intro hok
  rw [Answered, hstatus] at hok
  cases hok
  cases herror

/-! ### Jobs -/

/-- A job that passes the checks of its name, its PBS backup ids and its scripts. -/
structure JobValid (st : State L) (job : TiBackupJob) : Prop where
  name : validIdentifier job.name = true
  ids : job.pbs = true → ∀ id ∈ job.pbsBackupIds, validPbsBackupId id = true
  scripts : ∀ s ∈ [job.scriptBeforeBackup, job.scriptAfterBackup],
    s ≠ "" → confineToScripts st s ≠ ""

/-- Job names are pairwise distinct, and every stored job is valid. -/
structure JobsValid (st : State L) : Prop where
  names : ((allJobs st).map TiBackupJob.name).Nodup
  jobs : ∀ job ∈ allJobs st, JobValid st job

/-- The routes that create, change and delete jobs. -/
def jobWrite : Route → Bool
  | .postJob | .putJob _ | .deleteJob _ => true
  | _ => false

/-- The shared checks of POST and PUT pass exactly for valid ids and scripts. -/
theorem jobBodyError_eq_none_iff {st : State L} {job : TiBackupJob} :
    jobBodyError st job = none ↔
      (job.pbs = true → ∀ id ∈ job.pbsBackupIds, validPbsBackupId id = true) ∧
        ∀ s ∈ [job.scriptBeforeBackup, job.scriptAfterBackup],
          s ≠ "" → confineToScripts st s ≠ "" := by
  unfold jobBodyError
  split
  · next h => simp_all
  · next hids =>
    split
    · next h =>
      obtain ⟨s, hs, hbad⟩ := List.any_eq_true.mp h
      simp only [Bool.and_eq_true, Bool.not_eq_true', String.isEmpty_eq_false_iff,
        String.isEmpty_iff] at hbad
      simp only [reduceCtorEq, false_iff]
      exact fun hscripts => hscripts.2 s hs hbad.1 hbad.2
    · next hscripts => simp_all

theorem mem_allJobs {st : State L} {job : TiBackupJob} :
    job ∈ allJobs st ↔ getJobByName st job.name = some job := KeyedStore.mem_items

/-- Stored jobs are valid as soon as every name finds a valid one. -/
theorem jobsValid_of_find {st : State L}
    (h : ∀ k job, getJobByName st k = some job → JobValid st job) : JobsValid st :=
  ⟨KeyedStore.items_key_nodup st.jobs, fun job hjob => h job.name job (mem_allJobs.mp hjob)⟩

theorem JobsValid.find {st : State L} (h : JobsValid st) {k : String} {job : TiBackupJob}
    (hk : getJobByName st k = some job) : JobValid st job := by
  refine h.jobs job (mem_allJobs.mpr ?_)
  rwa [L.jobs.key_of_find hk]

/-- Script checks read the configuration and the host only. -/
theorem JobValid.congr {st st' : State L} {job : TiBackupJob} (h : JobValid st job)
    (hconf : st'.conf = st.conf) (hhost : st'.host = st.host) : JobValid st' job := by
  refine ⟨h.name, h.ids, ?_⟩
  intro s hs hne
  rw [confineToScripts, State.getValue, hconf, hhost]
  exact h.scripts s hs hne

/-- PUT /api/jobs/<name> that is answered with ok has checked the body and both names. -/
theorem putJob_checked {name : String} {req : Request} {m : Moment} {st : State L}
    (h : Answered (putJob name req m st)) :
    validIdentifier (newJobName name (bodyJob req)) = true ∧ jobBodyError st (bodyJob req) = none := by
  unfold putJob at h
  rcases ran_or_rejected st req m _ with ⟨-, hrun⟩ | ⟨-, hno, -⟩
  swap
  · exact absurd h hno
  rw [hrun] at h
  have hbody : jobBodyError (st.validated m.now req) (JsonMap.jobFromJson (parseBody req)) =
    jobBodyError st (bodyJob req) := rfl
  by_cases hname : validIdentifier name = true
  swap
  · simp only [hname, Bool.not_false, if_true] at h
    cases h
  simp only [hname, Bool.not_true, Bool.false_eq_true, if_false, hbody] at h
  cases hvalid : jobBodyError st (bodyJob req) with
  | some e =>
    rw [hvalid] at h
    exact absurd (Option.some.inj h) (jobBodyError_status hvalid)
  | none =>
    refine ⟨?_, rfl⟩
    rw [newJobName]
    split
    · exact hname
    · next hne =>
      by_cases hsame : (bodyJob req).name = name
      · rwa [hsame]
      · -- A rename to an invalid name is refused, whatever is stored.
        by_contra hnew
        have hrename : (JsonMap.jobFromJson (parseBody req)).name ≠ "" ∧
          (JsonMap.jobFromJson (parseBody req)).name ≠ name := ⟨hne, hsame⟩
        have hinvalid : validIdentifier (JsonMap.jobFromJson (parseBody req)).name = false :=
          Bool.not_eq_true _ ▸ hnew
        simp only [hvalid, if_pos hrename, hinvalid, Bool.not_false, if_true] at h
        split at h
        · cases h
        · cases h

/-- A job write leaves configuration and host alone, and with them what a script check
answers. -/
theorem JobValid.serve {st : State L} {c : Call} (hroute : jobWrite c.route = true)
    {job : TiBackupJob} (h : JobValid st job) : JobValid (serve c st).1 job := by
  have hframe : c.route.writes .conf = false ∧ c.route.writes .host = false := by
    revert hroute
    cases c.route <;> simp [jobWrite, Route.writes]
  exact h.congr (handle_frame (p := .conf) hframe.1 c.req c.moment st)
    (handle_frame (p := .host) hframe.2 c.req c.moment st)

/-- What a job write can leave in the store: the jobs that were there, and a valid one. -/
theorem find_serve_jobWrite {st : State L} {c : Call} (hroute : jobWrite c.route = true)
    {k : String} {job : TiBackupJob} (hk : getJobByName (serve c st).1 k = some job) :
    getJobByName st k = some job ∨ JobValid st job := by
  obtain ⟨route, req, m⟩ := c
  have hkept : ∀ {r : State L × Reply}, Rejected st r → getJobByName r.1 k = some job →
      getJobByName st k = some job := by
    intro r hrejected hfind
    rwa [getJobByName, hrejected.2] at hfind
  cases route with
  | postJob =>
    rcases postJob_cases req m st with ⟨⟨-, hname, hbody, -⟩, hrun⟩ | ⟨-, hrejected⟩
    · have hsaved : L.jobs.find (L.jobs.save st.jobs (bodyJob req)) k = some job := by
        rw [serve, handle, hrun] at hk
        exact hk
      rw [L.jobs.find_save] at hsaved
      split at hsaved
      · obtain rfl := Option.some.inj hsaved
        obtain ⟨hids, hscripts⟩ := jobBodyError_eq_none_iff.mp hbody
        exact .inr ⟨hname, hids, hscripts⟩
      · exact .inl hsaved
    · exact .inl (hkept hrejected hk)
  -- Under its new name the record is the body, under its old one there is none.
  | putJob name =>
    rcases putJob_cases name req m st with ⟨hanswered, -, -, hput⟩ | hrejected
    · have hfind := hput.find k
      rw [show getJobByName (putJob name req m st).1 k = some job from hk] at hfind
      split at hfind
      · obtain rfl := Option.some.inj hfind
        obtain ⟨hname, hbody⟩ := putJob_checked hanswered
        obtain ⟨hids, hscripts⟩ := jobBodyError_eq_none_iff.mp hbody
        exact .inr ⟨hname, hids, hscripts⟩
      · split at hfind
        · cases hfind
        · exact .inl hfind.symm
    · exact .inl (hkept hrejected hk)
  | deleteJob name =>
    rcases deleteJob_cases name req m st with ⟨-, hrun⟩ | ⟨-, hrejected⟩
    · have hremoved : L.jobs.find (L.jobs.remove st.jobs name).1 k = some job := by
        rw [serve, handle, hrun] at hk
        exact hk
      rw [L.jobs.find_remove] at hremoved
      split at hremoved
      · cases hremoved
      · exact .inl hremoved
    · exact .inl (hkept hrejected hk)
  | _ => cases hroute

/-- One job write keeps the stored jobs valid. -/
theorem JobsValid.serve {st : State L} {c : Call} (hroute : jobWrite c.route = true)
    (h : JobsValid st) : JobsValid (serve c st).1 := by
  refine jobsValid_of_find ?_
  intro k job hk
  rcases find_serve_jobWrite hroute hk with hold | hnew
  · exact (h.find hold).serve hroute
  · exact hnew.serve hroute

/-- A refused job write leaves the store as it was. -/
theorem jobs_of_clientError {st : State L} {c : Call} (hroute : jobWrite c.route = true)
    (herror : ClientError (serve c st).2) : (serve c st).1.jobs = st.jobs := by
  obtain ⟨route, req, m⟩ := c
  have hno := not_answered_of_clientError herror
  have hkept : ∀ {r : State L × Reply}, Rejected st r → r.1.jobs = st.jobs := by
    intro r hrejected
    rw [hrejected.2]
  cases route with
  | postJob =>
    rcases postJob_cases req m st with ⟨-, hrun⟩ | ⟨-, hrejected⟩
    · rw [serve, handle, hrun] at hno
      exact absurd rfl hno
    · exact hkept hrejected
  | putJob name =>
    rcases putJob_cases name req m st with ⟨hanswered, -⟩ | hrejected
    · exact absurd hanswered hno
    · exact hkept hrejected
  | deleteJob name =>
    rcases deleteJob_cases name req m st with ⟨-, hrun⟩ | ⟨-, hrejected⟩
    · rw [serve, handle, hrun] at hno
      exact absurd rfl hno
    · exact hkept hrejected
  | _ => cases hroute

/-- **The job store.** Every sequence of POST, PUT and DELETE requests leaves the job
names pairwise distinct and every stored job valid, if they were; and a request that is
answered with a status 4xx leaves the store exactly as it was. -/
theorem jobs_stay_valid {st : State L} (h : JobsValid st) {calls : List Call}
    (hroutes : ∀ c ∈ calls, jobWrite c.route = true) :
    JobsValid ((api L).run st calls) ∧
      (api L).Along (fun s c => JobsValid s ∧ (ClientError ((api L).out s c) →
        ((api L).next s c).jobs = s.jobs)) st calls := by
  have halong := along_of_forall_mem (M := api L) hroutes st
  constructor
  · exact invariant_run (fun s c hs hc => hs.serve hc) h halong
  · exact along_of_invariant (fun s c hs hc => hs.serve hc)
      (fun s c hs hc => ⟨hs, jobs_of_clientError hc⟩) h halong

/-- A job is created, renamed onto nothing, and asked for with an id that is refused. -/
def photosCalls : List Call :=
  [⟨.postJob, Reference.request (.obj [("name", .str "photos"), ("pbs", .bool true),
      ("pbs_backup_ids", .arr [.str "vm/101"])]), Reference.moment "11111111"⟩,
    ⟨.putJob "photos", Reference.request (.obj [("name", .str "pictures")]),
      Reference.moment "22222222"⟩,
    ⟨.postJob, Reference.request (.obj [("name", .str "music"), ("pbs", .bool true),
      ("pbs_backup_ids", .arr [.str "../101"])]), Reference.moment "33333333"⟩]

theorem jobs_stay_valid_photos :
    JobsValid Reference.initial ∧ (∀ c ∈ photosCalls, jobWrite c.route = true) ∧
      JobsValid ((api Reference.library).run Reference.initial photosCalls) ∧
      (api Reference.library).Along (fun s c => JobsValid s ∧
        (ClientError ((api Reference.library).out s c) →
          ((api Reference.library).next s c).jobs = s.jobs)) Reference.initial photosCalls := by
  have hempty : JobsValid Reference.initial := by
    refine ⟨by decide, ?_⟩
    intro job hjob
    rw [show allJobs Reference.initial = [] by decide] at hjob
    cases hjob
  have hroutes : ∀ c ∈ photosCalls, jobWrite c.route = true := by simp [photosCalls, jobWrite]
  exact ⟨hempty, hroutes, jobs_stay_valid hempty hroutes⟩

/-! ### Servers -/

/-- What POST /api/pbs demands of a record. -/
structure PbsValid (srv : PBServer) : Prop where
  name : srv.name ≠ ""
  host : srv.host ≠ ""
  uuid : validUuid srv.uuid = true

/-- What POST /api/ssh demands of a record. -/
structure SshValid (srv : SSHServer) : Prop where
  name : srv.name ≠ ""
  host : srv.host ≠ ""
  username : srv.username ≠ ""
  uuid : validUuid srv.uuid = true

/-- Every stored server is one the create routes accept. -/
structure ServersValid (st : State L) : Prop where
  pbs : ∀ srv ∈ L.pbs.items st.pbs, PbsValid srv
  ssh : ∀ srv ∈ L.ssh.items st.ssh, SshValid srv

/-- A text field of the body, empty when it is absent or not a text. -/
def bodyField (req : Request) (name : String) : String := ((parseBody req).get name).toString

/-- A PUT that finds its server brings along the fields the create route demands. -/
def Complete (st : State L) (c : Call) : Prop :=
  match c.route with
  | .putPbs uuid =>
    CsrfVerified st c.moment.now c.req → validUuid uuid = true →
      (getPbsByUuid st uuid).isSome = true →
      bodyField c.req "name" ≠ "" ∧ bodyField c.req "host" ≠ ""
  | .putSsh uuid =>
    CsrfVerified st c.moment.now c.req → validUuid uuid = true →
      (getSshByUuid st uuid).isSome = true →
      bodyField c.req "name" ≠ "" ∧ bodyField c.req "host" ≠ "" ∧ bodyField c.req "username" ≠ ""
  | _ => True

/-- After a save all records of a store have a property, exactly when the new one has it. -/
theorem forall_items_save_iff {ρ : Type} {key : ρ → String} {S : KeyedStore key} {s : S.Carrier}
    {r : ρ} {P : ρ → Prop} (h : ∀ r ∈ S.items s, P r) :
    (∀ r' ∈ S.items (S.save s r), P r') ↔ P r := by
  constructor
  · intro hall
    refine hall r (KeyedStore.mem_items.mpr ?_)
    rw [S.find_save, if_pos rfl]
  · intro hr r' hr'
    have hfind := KeyedStore.mem_items.mp hr'
    rw [S.find_save] at hfind
    split at hfind
    · rwa [← Option.some.inj hfind]
    · exact h r' (KeyedStore.mem_items.mpr hfind)

/-- After a removal all records of a store have a property they had before. -/
theorem forall_items_remove {ρ : Type} {key : ρ → String} {S : KeyedStore key} {s : S.Carrier}
    {k : String} {P : ρ → Prop} (h : ∀ r ∈ S.items s, P r) :
    ∀ r ∈ S.items (S.remove s k).1, P r := by
  intro r hr
  have hfind := KeyedStore.mem_items.mp hr
  rw [S.find_remove] at hfind
  split at hfind
  · cases hfind
  · exact h r (KeyedStore.mem_items.mpr hfind)

/-- A state with the same two stores is as valid. -/
theorem ServersValid.congr {st st' : State L} (h : ServersValid st) (hpbs : st'.pbs = st.pbs)
    (hssh : st'.ssh = st.ssh) : ServersValid st' := by
  constructor
  · rw [hpbs]
    exact h.pbs
  · rw [hssh]
    exact h.ssh

theorem ServersValid.rejected {st : State L} {r : State L × Reply} (h : ServersValid st)
    (hr : Rejected st r) : ServersValid r.1 := by
  rw [hr.2]
  exact h.congr rfl rfl

/-- A saved PBS server is the one that has to be valid. -/
theorem ServersValid.savePbs_iff {st : State L} (h : ServersValid st) (now : Int) (req : Request)
    (srv : PBServer) : ServersValid (savePbs (st.validated now req) srv) ↔ PbsValid srv := by
  have hitems := forall_items_save_iff (S := L.pbs) (r := srv) h.pbs
  exact ⟨fun hall => hitems.mp hall.pbs, fun hsrv => ⟨hitems.mpr hsrv, h.ssh⟩⟩

/-- A saved SSH server is the one that has to be valid. -/
theorem ServersValid.saveSsh_iff {st : State L} (h : ServersValid st) (now : Int) (req : Request)
    (srv : SSHServer) : ServersValid (saveSsh (st.validated now req) srv) ↔ SshValid srv := by
  have hitems := forall_items_save_iff (S := L.ssh) (r := srv) h.ssh
  exact ⟨fun hall => hitems.mp hall.ssh, fun hsrv => ⟨h.pbs, hitems.mpr hsrv⟩⟩

/-- The record PUT /api/pbs/<uuid> saves has the required fields of the body. -/
theorem pbsValid_putPbsRecord_iff {uuid : String} (huuid : validUuid uuid = true)
    (existing : PBServer) (m : Moment) (req : Request) :
    PbsValid (putPbsRecord uuid existing m req) ↔
      bodyField req "name" ≠ "" ∧ bodyField req "host" ≠ "" := by
  rw [putPbsRecord, keepPbsSecrets_eq]
  exact ⟨fun h => ⟨h.name, h.host⟩, fun h => ⟨h.1, h.2, huuid⟩⟩

/-- The record PUT /api/ssh/<uuid> saves has the required fields of the body. -/
theorem sshValid_putSshRecord_iff {uuid : String} (huuid : validUuid uuid = true)
    (existing : SSHServer) (m : Moment) (req : Request) :
    SshValid (putSshRecord uuid existing m req) ↔
      bodyField req "name" ≠ "" ∧ bodyField req "host" ≠ "" ∧ bodyField req "username" ≠ "" := by
  rw [putSshRecord, keepSshSecrets_eq]
  exact ⟨fun h => ⟨h.name, h.host, h.username⟩, fun h => ⟨h.1, h.2.1, h.2.2, huuid⟩⟩

theorem ServersValid.putPbs_iff {st : State L} (h : ServersValid st) (uuid : String) (req : Request)
    (m : Moment) : ServersValid (putPbs uuid req m st).1 ↔ Complete st ⟨.putPbs uuid, req, m⟩ := by
  rcases putPbs_cases uuid req m st with ⟨existing, ⟨hverified, huuid⟩, hfound, hrun⟩ | ⟨hno, hr⟩
  · rw [hrun, h.savePbs_iff, pbsValid_putPbsRecord_iff huuid]
    exact ⟨fun hbody _ _ _ => hbody, fun hall => hall hverified huuid (by rw [hfound]; rfl)⟩
  · refine ⟨?_, fun _ => h.rejected hr⟩
    intro _ hverified huuid hfound
    exact absurd ⟨hverified, huuid, hfound⟩ hno

theorem ServersValid.putSsh_iff {st : State L} (h : ServersValid st) (uuid : String) (req : Request)
    (m : Moment) : ServersValid (putSsh uuid req m st).1 ↔ Complete st ⟨.putSsh uuid, req, m⟩ := by
  rcases putSsh_cases uuid req m st with ⟨existing, ⟨hverified, huuid⟩, hfound, hrun⟩ | ⟨hno, hr⟩
  · rw [hrun, h.saveSsh_iff, sshValid_putSshRecord_iff huuid]
    exact ⟨fun hbody _ _ _ => hbody, fun hall => hall hverified huuid (by rw [hfound]; rfl)⟩
  · refine ⟨?_, fun _ => h.rejected hr⟩
    intro _ hverified huuid hfound
    exact absurd ⟨hverified, huuid, hfound⟩ hno

/-- A request by any other route keeps the stored servers valid. -/
theorem ServersValid.serve {st : State L} (h : ServersValid st) {c : Call}
    (hpbs : ∀ uuid, c.route ≠ .putPbs uuid) (hssh : ∀ uuid, c.route ≠ .putSsh uuid) :
    ServersValid (serve c st).1 := by
  obtain ⟨route, req, m⟩ := c
  cases hwrites : route.writes .pbs || route.writes .ssh with
  | false =>
    rw [Bool.or_eq_false_iff] at hwrites
    exact h.congr (handle_frame (p := .pbs) hwrites.1 req m st)
      (handle_frame (p := .ssh) hwrites.2 req m st)
  | true =>
    cases route with
    | postPbs =>
      rcases postPbs_cases req m st with ⟨⟨-, hname, hhost, huuid⟩, hrun⟩ | ⟨-, hr⟩
      · rw [Api.serve, handle, hrun]
        exact (h.savePbs_iff m.now req _).mpr ⟨hname, hhost, huuid⟩
      · exact h.rejected hr
    | postSsh =>
      rcases postSsh_cases req m st with ⟨⟨-, hname, hhost, husername, huuid⟩, hrun⟩ | ⟨-, hr⟩
      · rw [Api.serve, handle, hrun]
        exact (h.saveSsh_iff m.now req _).mpr ⟨hname, hhost, husername, huuid⟩
      · exact h.rejected hr
    | deletePbs uuid =>
      rcases deletePbs_cases uuid req m st with ⟨-, hrun⟩ | ⟨-, hr⟩
      · rw [Api.serve, handle, hrun]
        exact ⟨forall_items_remove h.pbs, h.ssh⟩
      · exact h.rejected hr
    | deleteSsh uuid =>
      rcases deleteSsh_cases uuid req m st with ⟨-, hrun⟩ | ⟨-, hr⟩
      · rw [Api.serve, handle, hrun]
        exact ⟨h.pbs, forall_items_remove h.ssh⟩
      · exact h.rejected hr
    | putPbs uuid => exact absurd rfl (hpbs uuid)
    | putSsh uuid => exact absurd rfl (hssh uuid)
    | _ => cases hwrites

/-- One request keeps the stored servers valid exactly when it is complete. -/
theorem ServersValid.serve_iff {st : State L} (h : ServersValid st) (c : Call) :
    ServersValid (Api.serve c st).1 ↔ Complete st c := by
  by_cases hpbs : ∃ uuid, c.route = .putPbs uuid
  · obtain ⟨uuid, hroute⟩ := hpbs
    obtain ⟨route, req, m⟩ := c
    obtain rfl : route = .putPbs uuid := hroute
    exact h.putPbs_iff uuid req m
  · by_cases hssh : ∃ uuid, c.route = .putSsh uuid
    · obtain ⟨uuid, hroute⟩ := hssh
      obtain ⟨route, req, m⟩ := c
      obtain rfl : route = .putSsh uuid := hroute
      exact h.putSsh_iff uuid req m
    · refine iff_of_true (h.serve (not_exists.mp hpbs) (not_exists.mp hssh)) ?_
      rw [Complete]
      split
      · next uuid hroute => exact absurd ⟨uuid, hroute⟩ hpbs
      · next uuid hroute => exact absurd ⟨uuid, hroute⟩ hssh
      · trivial

/-- **The server stores.** In a run of any requests from empty stores, the stored
servers have what the create routes demand in every state, exactly when every PUT that
finds its server brings the required fields along. -/
theorem servers_valid_iff {st : State L} (hpbs : L.pbs.items st.pbs = [])
    (hssh : L.ssh.items st.ssh = []) (calls : List Call) :
    (api L).Along (fun s c => ServersValid ((api L).next s c)) st calls ↔
      (api L).Along Complete st calls := by
  refine along_next_iff (M := api L) (I := ServersValid) (fun s c hs => hs.serve_iff c) ?_ calls
  constructor
  · rw [hpbs]
    intro srv hsrv
    cases hsrv
  · rw [hssh]
    intro srv hsrv
    cases hsrv

/-- A PBS server is created, and saved again by a client that sends its fingerprint only. -/
def partialEdit : List Call :=
  [⟨.postPbs, Reference.request (.obj [("name", .str "offsite"), ("host", .str "pbs.example")]),
      Reference.moment "0a1b2c3d"⟩,
    ⟨.putPbs "0a1b2c3d", Reference.request (.obj [("fingerprint", .str "aa:bb")]),
      Reference.moment "11111111"⟩]

theorem servers_valid_iff_partialEdit :
    Reference.library.pbs.items Reference.initial.pbs = [] ∧
      Reference.library.ssh.items Reference.initial.ssh = [] ∧
      ((api Reference.library).Along
          (fun s c => ServersValid ((api Reference.library).next s c)) Reference.initial partialEdit ↔
        (api Reference.library).Along Complete Reference.initial partialEdit) := by
  have hpbs : Reference.library.pbs.items Reference.initial.pbs = [] := by decide
  have hssh : Reference.library.ssh.items Reference.initial.ssh = [] := by decide
  exact ⟨hpbs, hssh, servers_valid_iff hpbs hssh partialEdit⟩

/-- A server without a name and a host is stored. -/
theorem partialEdit_stores_nameless :
    Reference.library.pbs.items Reference.initial.pbs = [] ∧
      Reference.library.ssh.items Reference.initial.ssh = [] ∧
      ((api Reference.library).outputs Reference.initial partialEdit).map replyStatus =
        [some .ok, some .ok] ∧
      ¬ServersValid ((api Reference.library).run Reference.initial partialEdit) := by
  refine ⟨by decide, by decide, by decide +kernel, ?_⟩
  intro h
  have hnameless : ((Reference.library.pbs.items ((api Reference.library).run Reference.initial
      partialEdit).pbs).any fun srv => srv.name = "" && srv.host = "") = true := by decide +kernel
  obtain ⟨srv, hsrv, hname⟩ := List.any_eq_true.mp hnameless
  rw [Bool.and_eq_true, decide_eq_true_eq] at hname
  exact (h.pbs srv hsrv).name hname.1

end Api

end TiBackup
