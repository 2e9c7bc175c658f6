import TiBackup.Model.Reference
import TiBackup.Model.Router
import TiBackup.Stores.Writes

/-!
# TiBackup.Stores.OpenSave

**Opening a record and saving it changes nothing.** The body GET returns is read back
as the record it was written for, except for the secrets, which it does not contain;
PUT keeps the stored ones for those that are blank. Nothing is lost on the way:
`jobFromJson_toJson` and its siblings are about every field of a record.

A server can be opened under any uuid, but saved only under one that `validUuid`
accepts; a server with another one got there by a configuration file.
-/

namespace TiBackup

open Lib

variable {L : Library}

namespace Api

/-- The three stores give back the same records. -/
def SameRecords (st st' : State L) : Prop :=
  (∀ k, getJobByName st' k = getJobByName st k) ∧ (∀ k, getPbsByUuid st' k = getPbsByUuid st k) ∧
    ∀ k, getSshByUuid st' k = getSshByUuid st k

/-- A record is opened with `get` and its body is sent back with `put`, as it is or
with some of the fields `blanks` added: the answer is ok and no record is changed. -/
def OpenSave (st : State L) (get put : Route) (blanks : Json.Fields) : Prop :=
  ∀ req m s, LiveSession st m.now req s →
    ∃ body, (handle get req m st).2 = .now (jsonResp (.obj body)) ∧
      ∀ blank ⊆ blanks, ∀ req' m', CsrfVerified (handle get req m st).1 m'.now req' →
        req'.body = some (.obj (body ++ blank)) →
        Answered (handle put req' m' (handle get req m st).1) ∧
          SameRecords st (handle put req' m' (handle get req m st).1).1

/-- The secret fields of a PBS server as the form leaves them. -/
def pbsBlanks : Json.Fields := [("password", .str ""), ("keypass", .str "")]

/-- The secret fields of an SSH server as the form leaves them. -/
def sshBlanks : Json.Fields := [("keypass", .str ""), ("hostkey", .str "")]

/-- The session check keeps the stores. -/
theorem stores_validated (st : State L) (now : Int) (req : Request) :
    (st.validated now req).jobs = st.jobs ∧ (st.validated now req).pbs = st.pbs ∧
      (st.validated now req).ssh = st.ssh := by
  simp only [State.validated, and_self]

/-- Stores that find the same give back the same records. -/
theorem sameRecords_of_find {st st' : State L}
    (hjobs : ∀ k, L.jobs.find st'.jobs k = L.jobs.find st.jobs k)
    (hpbs : ∀ k, L.pbs.find st'.pbs k = L.pbs.find st.pbs k)
    (hssh : ∀ k, L.ssh.find st'.ssh k = L.ssh.find st.ssh k) : SameRecords st st' :=
  ⟨hjobs, hpbs, hssh⟩

section

variable {st : State L}

/-! ### Jobs -/

theorem openSave_job {name : String} {job : TiBackupJob} (hstored : getJobByName st name = some job)
    (hname : validIdentifier name = true) (hvalid : jobBodyError st job = none) :
    OpenSave st (.getJob name) (.putJob name) [] := by
  intro req m s hlive
  have hkey : job.name = name := L.jobs.key_of_find hstored
  have hread : getJob name req m st = (st.validated m.now req,
      .now (jsonResp (.obj (jobResponse (st.validated m.now req) name job)))) := by
    have hfound : getJobByName (st.validated m.now req) name = some job := hstored
    rw [getJob, withAuth_of_live hlive, reads, hfound]
  simp only [handle, hread]
  refine ⟨_, rfl, ?_⟩
  intro blank hblank req' m' hverified hsent
  have hjob : JsonMap.jobFromJson (parseBody req') = job := by
    rw [parseBody_obj hsent, jobResponse, List.append_assoc, JsonMap.jobFromJson_toJson]
  have hrun : putJob name req' m' (st.validated m.now req) =
      (saveBackupJob ((st.validated m.now req).validated m'.now req') job, .now okResp) := by
    have hvalid' : jobBodyError ((st.validated m.now req).validated m'.now req') job = none :=
      hvalid
    have hfound' : getJobByName ((st.validated m.now req).validated m'.now req') name = some job :=
      hstored
    rw [putJob, withCsrf_of_verified hverified]
    simp only [hname, Bool.not_true, Bool.false_eq_true, if_false, hjob, hvalid', hfound', hkey,
      ne_eq, not_true_eq_false, and_false]
    rw [← hkey]
  rw [hrun]
  have hkept : ∀ k, L.jobs.find (L.jobs.save st.jobs job) k = L.jobs.find st.jobs k := by
    refine L.jobs.find_save_stored ?_
    rw [hkey]
    exact hstored
  refine ⟨rfl, sameRecords_of_find ?_ ?_ ?_⟩
  · simp only [saveBackupJob, stores_validated]
    exact hkept
  · simp only [saveBackupJob, stores_validated, implies_true]
  · simp only [saveBackupJob, stores_validated, implies_true]

/-! ### Servers -/

theorem keepPbsSecrets_blank (srv : PBServer) :
    keepPbsSecrets srv { srv with password := "", keypass := "" } = srv := rfl

theorem putPbsRecord_opened {uuid : String} {srv : PBServer} {m : Moment} {req : Request}
    {blank : Json.Fields} (huuid : srv.uuid = uuid) (hblank : ∀ f ∈ blank, f.2 = .str "")
    (hsent : req.body = some (.obj (JsonMap.pbServerToJson srv false ++ blank))) :
    putPbsRecord uuid srv m req = srv := by
  have hback := JsonMap.pbServerFromJson_toJson m.uuid srv hblank
  rw [huuid] at hback
  rw [putPbsRecord, parseBody_obj hsent, hback, ← huuid, keepPbsSecrets_blank]

theorem keepSshSecrets_blank (srv : SSHServer) :
    keepSshSecrets srv { srv with keypass := "", hostkey := "" } = srv := rfl

theorem putSshRecord_opened {uuid : String} {srv : SSHServer} {m : Moment} {req : Request}
    {blank : Json.Fields} (huuid : srv.uuid = uuid) (hblank : ∀ f ∈ blank, f.2 = .str "")
    (hsent : req.body = some (.obj (JsonMap.sshServerToJson srv false ++ blank))) :
    putSshRecord uuid srv m req = srv := by
  have hback := JsonMap.sshServerFromJson_toJson m.uuid srv hblank
  rw [huuid] at hback
  rw [putSshRecord, parseBody_obj hsent, hback, ← huuid, keepSshSecrets_blank]

theorem blank_of_subset {a b : String} {blank : Json.Fields}
    (h : blank ⊆ [(a, .str ""), (b, .str "")]) : ∀ f ∈ blank, f.2 = .str "" := by
  intro f hf
  rcases List.mem_pair.mp (h hf) with rfl | rfl <;> rfl

theorem openSave_pbs {uuid : String} {srv : PBServer} (hstored : getPbsByUuid st uuid = some srv)
    (huuid : validUuid uuid = true) : OpenSave st (.getPbs uuid) (.putPbs uuid) pbsBlanks := by
  intro req m s hlive
  have hkey : srv.uuid = uuid := L.pbs.key_of_find hstored
  have hfound : getPbsByUuid (st.validated m.now req) uuid = some srv := hstored
  have hread : getPbs uuid req m st = (st.validated m.now req,
      .now (jsonResp (.obj (JsonMap.pbServerToJson srv false)))) := by
    rw [getPbs, withAuth_of_live hlive, reads, hfound]
  simp only [handle, hread]
  refine ⟨_, rfl, ?_⟩
  intro blank hblank req' m' hverified hsent
  rcases putPbs_cases uuid req' m' (st.validated m.now req)
    with ⟨existing, -, hexisting, hrun⟩ | ⟨hno, -⟩
  · obtain rfl : srv = existing := Option.some.inj (hfound.symm.trans hexisting)
    rw [hrun, putPbsRecord_opened hkey (blank_of_subset hblank) hsent]
    have hkept : ∀ k, L.pbs.find (L.pbs.save st.pbs srv) k = L.pbs.find st.pbs k := by
      refine L.pbs.find_save_stored ?_
      rw [hkey]
      exact hstored
    refine ⟨rfl, sameRecords_of_find ?_ ?_ ?_⟩
    · simp only [savePbs, stores_validated, implies_true]
    · simp only [savePbs, stores_validated]
      exact hkept
    · simp only [savePbs, stores_validated, implies_true]
  · exact absurd ⟨hverified, huuid, by rw [hfound]; rfl⟩ hno

theorem openSave_ssh {uuid : String} {srv : SSHServer} (hstored : getSshByUuid st uuid = some srv)
    (huuid : validUuid uuid = true) : OpenSave st (.getSsh uuid) (.putSsh uuid) sshBlanks := by
  intro req m s hlive
  have hkey : srv.uuid = uuid := L.ssh.key_of_find hstored
  have hfound : getSshByUuid (st.validated m.now req) uuid = some srv := hstored
  have hread : getSsh uuid req m st = (st.validated m.now req,
      .now (jsonResp (.obj (JsonMap.sshServerToJson srv false)))) := by
    rw [getSsh, withAuth_of_live hlive, reads, hfound]
  simp only [handle, hread]
  refine ⟨_, rfl, ?_⟩
  intro blank hblank req' m' hverified hsent
  rcases putSsh_cases uuid req' m' (st.validated m.now req)
    with ⟨existing, -, hexisting, hrun⟩ | ⟨hno, -⟩
  · obtain rfl : srv = existing := Option.some.inj (hfound.symm.trans hexisting)
    rw [hrun, putSshRecord_opened hkey (blank_of_subset hblank) hsent]
    have hkept : ∀ k, L.ssh.find (L.ssh.save st.ssh srv) k = L.ssh.find st.ssh k := by
      refine L.ssh.find_save_stored ?_
      rw [hkey]
      exact hstored
    refine ⟨rfl, sameRecords_of_find ?_ ?_ ?_⟩
    · simp only [saveSsh, stores_validated, implies_true]
    · simp only [saveSsh, stores_validated, implies_true]
    · simp only [saveSsh, stores_validated]
      exact hkept
  · exact absurd ⟨hverified, huuid, by rw [hfound]; rfl⟩ hno

end

/-- **Open and save.** In every state: a stored job that passes the checks of a job
body, and a stored server whose uuid is a plain one, can be opened and sent back, the
secret fields left out or blank, and every record stays as it is. -/
theorem open_save_keeps (st : State L) :
    (∀ name job, getJobByName st name = some job → validIdentifier name = true →
        jobBodyError st job = none → OpenSave st (.getJob name) (.putJob name) []) ∧
      (∀ uuid srv, getPbsByUuid st uuid = some srv → validUuid uuid = true →
        OpenSave st (.getPbs uuid) (.putPbs uuid) pbsBlanks) ∧
      ∀ uuid srv, getSshByUuid st uuid = some srv → validUuid uuid = true →
        OpenSave st (.getSsh uuid) (.putSsh uuid) sshBlanks :=
  ⟨fun _ _ => openSave_job, fun _ _ => openSave_pbs, fun _ _ => openSave_ssh⟩

/-- A server whose record was written by hand, under a uuid that is not one. -/
def handmadePbs : PBServer where
  uuid := "offsite"
  name := "offsite"
  host := "pbs.example"
  port := 8007
  username := "root@pam"
  password := "secret"
  fingerprint := ""
  keyfile := ""
  keypass := ""

/-- It can be opened, but what was opened is refused. -/
theorem open_save_refused :
    getPbsByUuid (savePbs Reference.initial handmadePbs) "offsite" = some handmadePbs ∧
      ¬OpenSave (savePbs Reference.initial handmadePbs) (.getPbs "offsite") (.putPbs "offsite")
        pbsBlanks := by
  refine ⟨by decide, ?_⟩
  intro hopen
  have hverified : CsrfVerified (savePbs Reference.initial handmadePbs) 1
      (Reference.request .null) := Reference.csrfVerified rfl _
  obtain ⟨s, hlive⟩ := hverified.live
  obtain ⟨body, -, hput⟩ := hopen (Reference.request .null) (Reference.moment "11111111") s hlive
  have hget : (handle (.getPbs "offsite") (Reference.request .null) (Reference.moment "11111111")
      (savePbs Reference.initial handmadePbs)).1 =
        (savePbs Reference.initial handmadePbs).validated 1 (Reference.request .null) := by
    rw [handle, getPbs, withAuth_of_live hlive]
    rfl
  rw [hget] at hput
  obtain ⟨hanswered, -⟩ := hput [] (List.nil_subset _) (Reference.request (.obj (body ++ [])))
    (Reference.moment "11111111") (hverified.again (by decide) rfl rfl) rfl
  rcases putPbs_cases "offsite" (Reference.request (.obj (body ++ [])))
    (Reference.moment "11111111")
    ((savePbs Reference.initial handmadePbs).validated 1 (Reference.request .null))
    with ⟨-, ⟨-, huuid⟩, -⟩ | ⟨-, hno, -⟩
  · exact absurd huuid (by decide)
  · exact hno hanswered

/-- The same server under a uuid that is one. -/
theorem open_save_keeps_renamed :
    getPbsByUuid (savePbs Reference.initial { handmadePbs with uuid := "0a1b2c3d" }) "0a1b2c3d" =
        some { handmadePbs with uuid := "0a1b2c3d" } ∧
      OpenSave (savePbs Reference.initial { handmadePbs with uuid := "0a1b2c3d" })
        (.getPbs "0a1b2c3d") (.putPbs "0a1b2c3d") pbsBlanks := by
  have hstored : getPbsByUuid (savePbs Reference.initial { handmadePbs with uuid := "0a1b2c3d" })
      "0a1b2c3d" = some { handmadePbs with uuid := "0a1b2c3d" } := by decide
  exact ⟨hstored, (open_save_keeps _).2.1 _ _ hstored (by decide)⟩

end Api

end TiBackup
