import TiBackup.Auth.Checks
import TiBackup.Auth.Login

/-!
# TiBackup.Stores.Writes

**What the write routes of the stores can do**, one lemma a route. A request that is
answered with ok was verified and did exactly one thing; any other one left everything
but the sessions alone. The routes of one kind share a lemma (`created_or_rejected`,
`changed_or_rejected`, `removed_or_rejected`).
-/

namespace TiBackup

open Lib

variable {L : Library}

namespace Api

/-- The request is answered with ok. -/
def Answered (r : State L × Reply) : Prop := replyStatus r.2 = some .ok

/-- The request is not answered with ok, and nothing but the sessions is touched. -/
def Rejected (st : State L) (r : State L × Reply) : Prop :=
  ¬Answered r ∧ State.SameButSessions st r.1

section

variable {st s : State L} {req : Request} {m : Moment} {k : Handler L} {P : Prop} {r : Response}

/-- An answer that is not ok, and nothing but the session check happened. -/
theorem rejected_validated {e : Response} (he : e.status ≠ .ok) :
    Rejected st (st.validated m.now req, .now e) :=
  ⟨fun h => he (Option.some.inj h), State.sameButSessions_validated st m.now req⟩

/-- A handler behind both checks ran for a verified request, or it was rejected. -/
theorem ran_or_rejected (st : State L) (req : Request) (m : Moment) (k : Handler L) :
    CsrfVerified st m.now req ∧
        withAuth .now (withCsrf .now k) req m st = k req m (st.validated m.now req) ∨
      ¬CsrfVerified st m.now req ∧ Rejected st (withAuth .now (withCsrf .now k) req m st) := by
  by_cases hverified : CsrfVerified st m.now req
  · exact .inl ⟨hverified, withCsrf_of_verified hverified .now k⟩
  · obtain ⟨e, he, hrun⟩ := withCsrf_of_not_verified hverified .now k
    rw [hrun]
    refine .inr ⟨hverified, ?_, State.sameButSessions_validated st m.now req⟩
    intro h
    rcases he with rfl | rfl <;> cases h

/-- A handler body behind both checks that answers with ok exactly when `P`, and
otherwise leaves the state alone: it ran and was answered, or it was rejected. -/
theorem answered_or_rejected
    (hok : P → k req m (st.validated m.now req) = (s, .now r))
    (herr : ¬P → ∃ e, e.status ≠ .ok ∧
      k req m (st.validated m.now req) = (st.validated m.now req, .now e)) :
    (CsrfVerified st m.now req ∧ P) ∧
        withAuth .now (withCsrf .now k) req m st = (s, .now r) ∨
      ¬(CsrfVerified st m.now req ∧ P) ∧
        Rejected st (withAuth .now (withCsrf .now k) req m st) := by
  rcases ran_or_rejected st req m k with ⟨hverified, hrun⟩ | ⟨hno, hrejected⟩
  · rw [hrun]
    by_cases hP : P
    · exact .inl ⟨⟨hverified, hP⟩, hok hP⟩
    · obtain ⟨e, hstatus, hk⟩ := herr hP
      rw [hk]
      exact .inr ⟨fun h => hP h.2, rejected_validated hstatus⟩
  · exact .inr ⟨fun h => hno h.1, hrejected⟩

/-- A route that creates a server: some fields are required, and the id is checked. -/
theorem created_or_rejected {incomplete valid : Bool} (required : String)
    (hk : k req m (st.validated m.now req) =
      if incomplete then (st.validated m.now req, .now (errResp required .badRequest))
      else if !valid then (st.validated m.now req, .now (errResp "invalid server id" .badRequest))
      else (s, .now r)) :
    (CsrfVerified st m.now req ∧ incomplete = false ∧ valid = true) ∧
        withAuth .now (withCsrf .now k) req m st = (s, .now r) ∨
      ¬(CsrfVerified st m.now req ∧ incomplete = false ∧ valid = true) ∧
        Rejected st (withAuth .now (withCsrf .now k) req m st) := by
  refine answered_or_rejected ?_ ?_
  · rintro ⟨hcomplete, hvalid⟩
    rw [hk, hcomplete, hvalid]
    rfl
  · intro h
    cases hincomplete : incomplete with
    | true => exact ⟨errResp required .badRequest, nofun, by rw [hk, hincomplete]; rfl⟩
    | false =>
      have hinvalid : valid = false := by
        rw [← Bool.not_eq_true]
        exact fun hvalid => h ⟨hincomplete, hvalid⟩
      exact ⟨errResp "invalid server id" .badRequest, nofun, by rw [hk, hincomplete, hinvalid]; rfl⟩

/-- A route that changes a record in place: the name in the path is checked, and the
record has to be there. -/
theorem changed_or_rejected {ρ : Type} {valid : Bool} (invalid missing : String)
    {found : Option ρ} (after : ρ → State L)
    (hk : k req m (st.validated m.now req) =
      if !valid then (st.validated m.now req, .now (errResp invalid .badRequest))
      else match found with
        | none => (st.validated m.now req, .now (errResp missing .notFound))
        | some existing => (after existing, .now okResp)) :
    (∃ existing, (CsrfVerified st m.now req ∧ valid = true) ∧ found = some existing ∧
        withAuth .now (withCsrf .now k) req m st = (after existing, .now okResp)) ∨
      ¬(CsrfVerified st m.now req ∧ valid = true ∧ found.isSome) ∧
        Rejected st (withAuth .now (withCsrf .now k) req m st) := by
  rcases ran_or_rejected st req m k with ⟨hverified, hrun⟩ | ⟨hno, hrejected⟩
  · rw [hrun, hk]
    cases valid with
    | false => exact .inr ⟨fun h => Bool.false_ne_true h.2.1, rejected_validated nofun⟩
    | true =>
      cases found with
      | none => exact .inr ⟨fun h => Bool.false_ne_true h.2.2, rejected_validated nofun⟩
      | some existing => exact .inl ⟨existing, ⟨hverified, rfl⟩, rfl, rfl⟩
  · exact .inr ⟨fun h => hno h.1, hrejected⟩

/-- A route that removes a record from one of the stores: the name in the path is
checked, and the record has to be there. -/
theorem removed_or_rejected {κ ρ : Type} [DecidableEq κ] {key : ρ → κ} (S : KeyedStore key)
    (store : S.Carrier) (name : κ) {valid : Bool} (invalid : String) (put : S.Carrier → State L)
    (hsame : put store = st.validated m.now req)
    (hk : k req m (st.validated m.now req) =
      if !valid then (st.validated m.now req, .now (errResp invalid .badRequest))
      else if !(S.remove store name).2 then
        (put (S.remove store name).1, .now (errResp "delete failed" .notFound))
      else (put (S.remove store name).1, .now okResp)) :
    ((CsrfVerified st m.now req ∧ valid = true ∧ (S.find store name).isSome = true) ∧
        withAuth .now (withCsrf .now k) req m st = (put (S.remove store name).1, .now okResp)) ∨
      ¬(CsrfVerified st m.now req ∧ valid = true ∧ (S.find store name).isSome = true) ∧
        Rejected st (withAuth .now (withCsrf .now k) req m st) := by
  refine answered_or_rejected ?_ ?_
  · rintro ⟨hvalid, hfound⟩
    simp [hk, hvalid, S.remove_snd, hfound]
  · intro h
    cases hvalid : valid with
    | false => exact ⟨errResp invalid .badRequest, nofun, by simp [hk, hvalid]⟩
    | true =>
      have habsent : S.find store name = none := by
        rw [← Option.not_isSome_iff_eq_none]
        exact fun hfound => h ⟨hvalid, hfound⟩
      refine ⟨errResp "delete failed" .notFound, nofun, ?_⟩
      simp [hk, hvalid, S.remove_snd, habsent, S.remove_of_absent store name habsent, hsame]

end

/-! ### PBS servers -/

/-- The body of POST /api/pbs is accepted. -/
def PbsAccepted (m : Moment) (req : Request) : Prop :=
  (JsonMap.pbServerFromJson m.uuid (parseBody req)).name ≠ "" ∧
    (JsonMap.pbServerFromJson m.uuid (parseBody req)).host ≠ "" ∧
    validUuid (JsonMap.pbServerFromJson m.uuid (parseBody req)).uuid = true

theorem postPbs_cases (req : Request) (m : Moment) (st : State L) :
    (CsrfVerified st m.now req ∧ PbsAccepted m req) ∧ postPbs req m st =
        (savePbs (st.validated m.now req) (JsonMap.pbServerFromJson m.uuid (parseBody req)),
          .now (jsonResp (.obj [("ok", .bool true),
            ("uuid", .str (JsonMap.pbServerFromJson m.uuid (parseBody req)).uuid)]))) ∨
      ¬(CsrfVerified st m.now req ∧ PbsAccepted m req) ∧ Rejected st (postPbs req m st) := by
  generalize hsrv : JsonMap.pbServerFromJson m.uuid (parseBody req) = srv
  have haccepted : PbsAccepted m req ↔
      (srv.name.isEmpty || srv.host.isEmpty) = false ∧ validUuid srv.uuid = true := by
    simp [PbsAccepted, hsrv, and_assoc]
  rw [haccepted]
  subst hsrv
  exact created_or_rejected "name and host required" rfl

/-- The secrets a PBS server does not bring along are those of the existing one. -/
def keepPbsSecrets (existing srv : PBServer) : PBServer :=
  let srv := if srv.password.isEmpty then { srv with password := existing.password } else srv
  if srv.keypass.isEmpty then { srv with keypass := existing.keypass } else srv

theorem keepPbsSecrets_eq (existing srv : PBServer) : keepPbsSecrets existing srv =
    { srv with
      password := if srv.password.isEmpty then existing.password else srv.password
      keypass := if srv.keypass.isEmpty then existing.keypass else srv.keypass } := by
  unfold keepPbsSecrets
  by_cases hpassword : srv.password.isEmpty = true <;>
    by_cases hkeypass : srv.keypass.isEmpty = true <;> simp [hpassword, hkeypass]

/-- The record PUT /api/pbs/<uuid> saves. -/
def putPbsRecord (uuid : String) (existing : PBServer) (m : Moment) (req : Request) : PBServer :=
  keepPbsSecrets existing { JsonMap.pbServerFromJson m.uuid (parseBody req) with uuid := uuid }

theorem putPbs_cases (uuid : String) (req : Request) (m : Moment) (st : State L) :
    (∃ existing, (CsrfVerified st m.now req ∧ validUuid uuid = true) ∧
        getPbsByUuid st uuid = some existing ∧ putPbs uuid req m st =
          (savePbs (st.validated m.now req) (putPbsRecord uuid existing m req), .now okResp)) ∨
      ¬(CsrfVerified st m.now req ∧ validUuid uuid = true ∧ (getPbsByUuid st uuid).isSome) ∧
        Rejected st (putPbs uuid req m st) := by
  have hfind : getPbsByUuid (st.validated m.now req) uuid = getPbsByUuid st uuid := rfl
  refine changed_or_rejected "invalid server id" "server not found"
    (fun existing => savePbs (st.validated m.now req) (putPbsRecord uuid existing m req)) ?_
  rw [hfind]
  cases getPbsByUuid st uuid <;> rfl

theorem deletePbs_cases (uuid : String) (req : Request) (m : Moment) (st : State L) :
    ((CsrfVerified st m.now req ∧ validUuid uuid = true ∧ (getPbsByUuid st uuid).isSome = true) ∧
        deletePbs uuid req m st =
          ({ st.validated m.now req with pbs := (L.pbs.remove st.pbs uuid).1 }, .now okResp)) ∨
      ¬(CsrfVerified st m.now req ∧ validUuid uuid = true ∧
          (getPbsByUuid st uuid).isSome = true) ∧ Rejected st (deletePbs uuid req m st) :=
  removed_or_rejected L.pbs st.pbs uuid "invalid server id"
    (fun servers => { st.validated m.now req with pbs := servers }) rfl rfl

/-! ### SSH servers -/

/-- The body of POST /api/ssh is accepted. -/
def SshAccepted (m : Moment) (req : Request) : Prop :=
  (JsonMap.sshServerFromJson m.uuid (parseBody req)).name ≠ "" ∧
    (JsonMap.sshServerFromJson m.uuid (parseBody req)).host ≠ "" ∧
    (JsonMap.sshServerFromJson m.uuid (parseBody req)).username ≠ "" ∧
    validUuid (JsonMap.sshServerFromJson m.uuid (parseBody req)).uuid = true

theorem postSsh_cases (req : Request) (m : Moment) (st : State L) :
    (CsrfVerified st m.now req ∧ SshAccepted m req) ∧ postSsh req m st =
        (saveSsh (st.validated m.now req) (JsonMap.sshServerFromJson m.uuid (parseBody req)),
          .now (jsonResp (.obj [("ok", .bool true),
            ("uuid", .str (JsonMap.sshServerFromJson m.uuid (parseBody req)).uuid)]))) ∨
      ¬(CsrfVerified st m.now req ∧ SshAccepted m req) ∧ Rejected st (postSsh req m st) := by
  generalize hsrv : JsonMap.sshServerFromJson m.uuid (parseBody req) = srv
  have haccepted : SshAccepted m req ↔
      (srv.name.isEmpty || srv.host.isEmpty || srv.username.isEmpty) = false ∧
        validUuid srv.uuid = true := by
    simp [SshAccepted, hsrv, and_assoc]
  rw [haccepted]
  subst hsrv
  exact created_or_rejected "name, host and username required" rfl

/-- The secrets an SSH server does not bring along are those of the existing one. -/
def keepSshSecrets (existing srv : SSHServer) : SSHServer :=
  let srv := if srv.keypass.isEmpty then { srv with keypass := existing.keypass } else srv
  if srv.hostkey.isEmpty then { srv with hostkey := existing.hostkey } else srv

theorem keepSshSecrets_eq (existing srv : SSHServer) : keepSshSecrets existing srv =
    { srv with
      keypass := if srv.keypass.isEmpty then existing.keypass else srv.keypass
      hostkey := if srv.hostkey.isEmpty then existing.hostkey else srv.hostkey } := by
  unfold keepSshSecrets
  by_cases hkeypass : srv.keypass.isEmpty = true <;>
    by_cases hhostkey : srv.hostkey.isEmpty = true <;> simp [hkeypass, hhostkey]

/-- The record PUT /api/ssh/<uuid> saves. -/
def putSshRecord (uuid : String) (existing : SSHServer) (m : Moment) (req : Request) : SSHServer :=
  keepSshSecrets existing { JsonMap.sshServerFromJson m.uuid (parseBody req) with uuid := uuid }

theorem putSsh_cases (uuid : String) (req : Request) (m : Moment) (st : State L) :
    (∃ existing, (CsrfVerified st m.now req ∧ validUuid uuid = true) ∧
        getSshByUuid st uuid = some existing ∧ putSsh uuid req m st =
          (saveSsh (st.validated m.now req) (putSshRecord uuid existing m req), .now okResp)) ∨
      ¬(CsrfVerified st m.now req ∧ validUuid uuid = true ∧ (getSshByUuid st uuid).isSome) ∧
        Rejected st (putSsh uuid req m st) := by
  have hfind : getSshByUuid (st.validated m.now req) uuid = getSshByUuid st uuid := rfl
  refine changed_or_rejected "invalid server id" "server not found"
    (fun existing => saveSsh (st.validated m.now req) (putSshRecord uuid existing m req)) ?_
  rw [hfind]
  cases getSshByUuid st uuid <;> rfl

theorem deleteSsh_cases (uuid : String) (req : Request) (m : Moment) (st : State L) :
    ((CsrfVerified st m.now req ∧ validUuid uuid = true ∧ (getSshByUuid st uuid).isSome = true) ∧
        deleteSsh uuid req m st =
          ({ st.validated m.now req with ssh := (L.ssh.remove st.ssh uuid).1 }, .now okResp)) ∨
      ¬(CsrfVerified st m.now req ∧ validUuid uuid = true ∧
          (getSshByUuid st uuid).isSome = true) ∧ Rejected st (deleteSsh uuid req m st) :=
  removed_or_rejected L.ssh st.ssh uuid "invalid server id"
    (fun servers => { st.validated m.now req with ssh := servers }) rfl rfl

/-! ### Backup jobs -/

/-- The job of a request body. -/
def bodyJob (req : Request) : TiBackupJob := JsonMap.jobFromJson (parseBody req)

/-- The body of POST /api/jobs is accepted. -/
def JobAccepted (st : State L) (job : TiBackupJob) : Prop :=
  validIdentifier job.name = true ∧ jobBodyError st job = none ∧ getJobByName st job.name = none

theorem jobBodyError_status {st : State L} {job : TiBackupJob} {e : Response}
    (h : jobBodyError st job = some e) : e.status ≠ .ok := by
  unfold jobBodyError at h
  split at h
  · cases h; nofun
  · split at h
    · cases h; nofun
    · cases h

theorem postJob_cases (req : Request) (m : Moment) (st : State L) :
    (CsrfVerified st m.now req ∧ JobAccepted st (bodyJob req)) ∧ postJob req m st =
        (saveBackupJob (st.validated m.now req) (bodyJob req), .now okResp) ∨
      ¬(CsrfVerified st m.now req ∧ JobAccepted st (bodyJob req)) ∧
        Rejected st (postJob req m st) := by
  have hfind : getJobByName (st.validated m.now req) (JsonMap.jobFromJson (parseBody req)).name =
    getJobByName st (bodyJob req).name := rfl
  have hbody : jobBodyError (st.validated m.now req) (JsonMap.jobFromJson (parseBody req)) =
    jobBodyError st (bodyJob req) := rfl
  refine answered_or_rejected ?_ ?_
  · rintro ⟨hname, hvalid, hfree⟩
    have hname : validIdentifier (JsonMap.jobFromJson (parseBody req)).name = true := hname
    simp only [hname, Bool.not_true, Bool.false_eq_true, if_false, hbody, hvalid, hfind, hfree,
      Option.isSome_none]
    rfl
  · intro h
    by_cases hname : validIdentifier (JsonMap.jobFromJson (parseBody req)).name = true
    · simp only [hname, Bool.not_true, Bool.false_eq_true, if_false, hbody, hfind]
      cases hvalid : jobBodyError st (bodyJob req) with
      | some e => exact ⟨e, jobBodyError_status hvalid, rfl⟩
      | none =>
        have htaken : (getJobByName st (bodyJob req).name).isSome = true := by
          rw [Option.isSome_iff_ne_none]
          exact fun hfree => h ⟨hname, hvalid, hfree⟩
        exact ⟨errResp "a job with that name already exists" .conflict, nofun,
          by simp only [htaken, if_true]⟩
    · exact ⟨errResp "invalid job name (allowed: letters, digits, . _ -)" .badRequest, nofun,
        by simp only [hname]; rfl⟩

/-- The name a job has after PUT /api/jobs/<name>: the one in the body, if there is one. -/
def newJobName (name : String) (job : TiBackupJob) : String :=
  if job.name = "" then name else job.name

/-- What PUT /api/jobs/<name> does when it is answered with ok: the job that was stored
under `name` is now the one of the body, under its new name. -/
structure PutJob (st st' : State L) (name new : String) (job : TiBackupJob) : Prop where
  others : st' = { st with sessions := st'.sessions, jobs := st'.jobs }
  stored : (getJobByName st name).isSome = true
  free : new = name ∨ getJobByName st new = none
  find : ∀ k, getJobByName st' k = if k = new then some { job with name := new }
    else if k = name then none else getJobByName st k

theorem putJob_cases (name : String) (req : Request) (m : Moment) (st : State L) :
    Answered (putJob name req m st) ∧ CsrfVerified st m.now req ∧
        (putJob name req m st).1.sessions = (st.validated m.now req).sessions ∧
        PutJob st (putJob name req m st).1 name (newJobName name (bodyJob req)) (bodyJob req) ∨
      Rejected st (putJob name req m st) := by
  unfold putJob
  refine (ran_or_rejected st req m _).elim ?_ fun h => .inr h.2
  rintro ⟨hverified, hrun⟩
  rw [hrun]
  have hfind : getJobByName (st.validated m.now req) name = getJobByName st name := rfl
  have hbody : jobBodyError (st.validated m.now req) (JsonMap.jobFromJson (parseBody req)) =
    jobBodyError st (bodyJob req) := rfl
  by_cases hname : validIdentifier name = true
  swap
  · simp only [hname, Bool.not_false, if_true]
    exact .inr (rejected_validated nofun)
  simp only [hname, Bool.not_true, Bool.false_eq_true, if_false, hbody, hfind]
  cases hvalid : jobBodyError st (bodyJob req) with
  | some e => exact .inr (rejected_validated (jobBodyError_status hvalid))
  | none =>
    cases hold : getJobByName st name with
    | none => exact .inr (rejected_validated nofun)
    | some old =>
      dsimp only
      by_cases hrename : (JsonMap.jobFromJson (parseBody req)).name ≠ "" ∧
          (JsonMap.jobFromJson (parseBody req)).name ≠ name
      · rw [if_pos hrename]
        by_cases hnew : validIdentifier (JsonMap.jobFromJson (parseBody req)).name = true
        swap
        · simp only [hnew, Bool.not_false, if_true]
          exact .inr (rejected_validated nofun)
        simp only [hnew, Bool.not_true, Bool.false_eq_true, if_false]
        have hnewName : newJobName name (bodyJob req) = (bodyJob req).name := if_neg hrename.1
        by_cases hdone : (L.jobs.renameJob (st.validated m.now req).jobs name
            (JsonMap.jobFromJson (parseBody req)).name).2 = true
        · simp only [hdone, Bool.not_true, Bool.false_eq_true, if_false]
          obtain ⟨hfree, old', -, hmoved⟩ := L.jobs.renameJob_true hdone
          refine .inl ⟨rfl, hverified, rfl, rfl, by rw [hold]; rfl, ?_, ?_⟩
          · rw [hnewName]
            exact .inr hfree
          · intro k
            rw [hnewName]
            refine (L.jobs.find_save _ _ _).trans ?_
            rw [hmoved]
            show (if k = (bodyJob req).name then some (bodyJob req) else _) = _
            split
            · rfl
            · next hk => exact if_neg hk
        -- `renameJob` refuses a name that is taken, before anything is saved.
        · rw [Bool.not_eq_true] at hdone
          simp only [hdone, Bool.not_false, if_true]
          have hsame := L.jobs.renameJob_false hdone
          rw [hsame]
          exact .inr (rejected_validated nofun)
      · rw [if_neg hrename]
        have hnewName : newJobName name (bodyJob req) = name := by
          rw [newJobName]
          split
          · rfl
          · next hne => exact of_not_not fun hother => hrename ⟨hne, hother⟩
        refine .inl ⟨rfl, hverified, rfl, rfl, by rw [hold]; rfl, .inl hnewName, ?_⟩
        intro k
        rw [hnewName]
        refine (L.jobs.find_save _ _ _).trans ?_
        split <;> rfl

theorem deleteJob_cases (name : String) (req : Request) (m : Moment) (st : State L) :
    ((CsrfVerified st m.now req ∧ validIdentifier name = true ∧
          (getJobByName st name).isSome = true) ∧
        deleteJob name req m st =
          ({ st.validated m.now req with jobs := (L.jobs.remove st.jobs name).1 }, .now okResp)) ∨
      ¬(CsrfVerified st m.now req ∧ validIdentifier name = true ∧
          (getJobByName st name).isSome = true) ∧ Rejected st (deleteJob name req m st) :=
  removed_or_rejected L.jobs.toKeyedStore st.jobs name "invalid job name"
    (fun jobs => { st.validated m.now req with jobs := jobs }) rfl rfl

end Api

end TiBackup
