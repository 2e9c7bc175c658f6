import TiBackup.Lib.Machine
import TiBackup.Model.Reference
import TiBackup.Model.Router
import TiBackup.Stores.Writes

/-!
# TiBackup.Stores.Secrecy

**Stored secrets are write-only.** Two daemons whose states differ in nothing but the
stored secrets answer every sequence of requests alike, as long as no request contacts
a remote machine, and go on differing in nothing but the secrets.

`SameButSecrets` is that relation. Of a secret it keeps one bit: whether it is empty,
which a client may learn (`password_set`, `hostkey_set`) and which decides what PUT
keeps. A handler is `Oblivious` when it takes related states to related states and
answers both alike; both checks make an oblivious handler of an oblivious one, so only
the bodies of the handlers have to be looked at.
-/

namespace TiBackup

open Lib Lib.Machine

variable {L : Library}

/-! ### States that differ in secrets only -/

/-- Two PBS servers that differ in the password and the key passphrase only, with the
same ones empty. -/
structure PBServer.SameButSecrets (a b : PBServer) : Prop where
  others : b = { a with password := b.password, keypass := b.keypass }
  password : a.password.isEmpty = b.password.isEmpty
  keypass : a.keypass.isEmpty = b.keypass.isEmpty

/-- Two SSH servers that differ in the key passphrase and the pinned host key only,
with the same ones empty. -/
structure SSHServer.SameButSecrets (a b : SSHServer) : Prop where
  others : b = { a with keypass := b.keypass, hostkey := b.hostkey }
  keypass : a.keypass.isEmpty = b.keypass.isEmpty
  hostkey : a.hostkey.isEmpty = b.hostkey.isEmpty

theorem PBServer.SameButSecrets.refl (a : PBServer) : PBServer.SameButSecrets a a := ⟨rfl, rfl, rfl⟩

theorem SSHServer.SameButSecrets.refl (a : SSHServer) : SSHServer.SameButSecrets a a :=
  ⟨rfl, rfl, rfl⟩

theorem PBServer.SameButSecrets.uuid {a b : PBServer} (h : a.SameButSecrets b) : a.uuid = b.uuid := by
  rw [h.others]

theorem SSHServer.SameButSecrets.uuid {a b : SSHServer} (h : a.SameButSecrets b) :
    a.uuid = b.uuid := by
  rw [h.others]

/-- Two states that differ in stored secrets only, with the same ones empty. -/
structure State.SameButSecrets (st st' : State L) : Prop where
  others : st' = { st with conf := st'.conf, pbs := st'.pbs, ssh := st'.ssh }
  getValue : ∀ k, k ≠ "smtp/password" → st.getValue k = st'.getValue k
  smtpPassword : (st.getValue "smtp/password").toString.isEmpty =
    (st'.getValue "smtp/password").toString.isEmpty
  pbs : L.pbs.Related PBServer.SameButSecrets st.pbs st'.pbs
  ssh : L.ssh.Related SSHServer.SameButSecrets st.ssh st'.ssh

namespace State.SameButSecrets

variable {st st' : State L}

theorem sessions (h : st.SameButSecrets st') : st'.sessions = st.sessions := by rw [h.others]

theorem jobs (h : st.SameButSecrets st') : st'.jobs = st.jobs := by rw [h.others]

theorem manager (h : st.SameButSecrets st') : st'.manager = st.manager := by rw [h.others]

theorem host (h : st.SameButSecrets st') : st'.host = st.host := by rw [h.others]

/-- Only the configuration and the two server stores are looked at. -/
theorem of_conf (h : st.SameButSecrets st') {s s' : State L}
    (hothers : s' = { s with conf := s'.conf, pbs := s'.pbs, ssh := s'.ssh })
    (hconf : s.conf = st.conf) (hconf' : s'.conf = st'.conf)
    (hpbs : L.pbs.Related PBServer.SameButSecrets s.pbs s'.pbs)
    (hssh : L.ssh.Related SSHServer.SameButSecrets s.ssh s'.ssh) : s.SameButSecrets s' := by
  have hsame : ∀ k, s.getValue k = st.getValue k ∧ s'.getValue k = st'.getValue k := fun k => by
    simp only [State.getValue, hconf, hconf', and_self]
  refine ⟨hothers, fun k hk => ?_, ?_, hpbs, hssh⟩
  · rw [(hsame k).1, (hsame k).2]
    exact h.getValue k hk
  · rw [(hsame _).1, (hsame _).2]
    exact h.smtpPassword

theorem with_sessions (h : st.SameButSecrets st') (s : SessionStore) :
    SameButSecrets { st with sessions := s } { st' with sessions := s } :=
  h.of_conf (by rw [h.others]) rfl rfl h.pbs h.ssh

theorem with_jobs (h : st.SameButSecrets st') (j : L.jobs.Carrier) :
    SameButSecrets { st with jobs := j } { st' with jobs := j } :=
  h.of_conf (by rw [h.others]) rfl rfl h.pbs h.ssh

theorem with_manager (h : st.SameButSecrets st') (b : L.manager.Carrier) :
    SameButSecrets { st with manager := b } { st' with manager := b } :=
  h.of_conf (by rw [h.others]) rfl rfl h.pbs h.ssh

theorem with_pbs (h : st.SameButSecrets st') {p p' : L.pbs.Carrier}
    (hp : L.pbs.Related PBServer.SameButSecrets p p') :
    SameButSecrets { st with pbs := p } { st' with pbs := p' } :=
  h.of_conf (by rw [h.others]) rfl rfl hp h.ssh

theorem with_ssh (h : st.SameButSecrets st') {s s' : L.ssh.Carrier}
    (hs : L.ssh.Related SSHServer.SameButSecrets s s') :
    SameButSecrets { st with ssh := s } { st' with ssh := s' } :=
  h.of_conf (by rw [h.others]) rfl rfl h.pbs hs

theorem with_debugLogging (h : st.SameButSecrets st') (b : Bool) :
    SameButSecrets { st with debugLogging := b } { st' with debugLogging := b } :=
  h.of_conf (by rw [h.others]) rfl rfl h.pbs h.ssh

/-- Setting one key to one value, in both states. -/
theorem setValue (h : st.SameButSecrets st') (k : String) (v : QVariant) :
    SameButSecrets (st.setValue k v) (st'.setValue k v) where
  others := by
    rw [State.setValue, State.setValue, h.others]
  getValue k' hk' := by
    rw [getValue_setValue, getValue_setValue, h.getValue k' hk']
  smtpPassword := by
    rw [getValue_setValue, getValue_setValue]
    split
    · rfl
    · exact h.smtpPassword
  pbs := h.pbs
  ssh := h.ssh

end State.SameButSecrets

namespace Api

/-! ### Oblivious handlers -/

/-- The handler answers the same in states that differ in secrets only, and leaves such
states behind. -/
def Oblivious (k : Handler L) : Prop :=
  ∀ req m st st', State.SameButSecrets st st' →
    State.SameButSecrets (k req m st).1 (k req m st').1 ∧ (k req m st).2 = (k req m st').2

theorem oblivious_withAuth {k : Handler L} (hk : Oblivious k) (d : Response → Reply) :
    Oblivious (withAuth d k) := by
  intro req m st st' h
  simp only [withAuth, h.sessions]
  split
  · exact hk req m _ _ (h.with_sessions _)
  · exact ⟨h.with_sessions _, rfl⟩

theorem oblivious_withCsrf {k : Handler L} (hk : Oblivious k) (d : Response → Reply) :
    Oblivious (withCsrf d k) := by
  intro req m st st' h
  have hcsrf : csrfOk st' req = csrfOk st req := by rw [csrfOk, csrfOk, h.sessions]
  simp only [withCsrf, hcsrf]
  split
  · exact hk req m _ _ h
  · exact ⟨h, rfl⟩

/-- Behind both checks a handler is as oblivious as its body. -/
theorem oblivious_guarded {k : Handler L} (hk : Oblivious k) (d : Response → Reply) :
    Oblivious (withAuth d (withCsrf d k)) :=
  oblivious_withAuth (oblivious_withCsrf hk d) d

theorem oblivious_reads {f : Request → State L → Reply}
    (hf : ∀ req st st', State.SameButSecrets st st' → f req st = f req st') :
    Oblivious (reads f) :=
  fun req _ _ _ h => ⟨h, hf req _ _ h⟩

theorem ite_sameButSecrets {a a' b b' : State L} (c : Bool) (ha : State.SameButSecrets a a')
    (hb : State.SameButSecrets b b') :
    State.SameButSecrets (if c then a else b) (if c then a' else b') := by
  cases c with
  | true => exact ha
  | false => exact hb

/-! ### Preferences -/

theorem oblivious_getPrefs : Oblivious (getPrefs (L := L)) := by
  refine oblivious_withAuth (oblivious_reads ?_) _
  intro req st st' h
  rw [h.smtpPassword, h.getValue "main/debug" (by decide), h.getValue "paths/backupjobs" (by decide),
    h.getValue "paths/pbservers" (by decide), h.getValue "paths/logs" (by decide),
    h.getValue "paths/scripts" (by decide), h.getValue "smtp/server" (by decide),
    h.getValue "smtp/port" (by decide), h.getValue "smtp/security" (by decide),
    h.getValue "smtp/auth" (by decide), h.getValue "smtp/username" (by decide),
    h.getValue "smtp/from" (by decide)]

theorem setIfPresent_sameButSecrets {st st' : State L} (h : State.SameButSecrets st st')
    (o : Json.Fields) (field key : String) (conv : Json → QVariant) :
    State.SameButSecrets (setIfPresent o field key conv st) (setIfPresent o field key conv st') := by
  rw [setIfPresent, setIfPresent]
  split
  · exact h.setValue key _
  · exact h

theorem setPaths_sameButSecrets {st st' : State L} (h : State.SameButSecrets st st')
    (p : Json.Fields) : State.SameButSecrets (setPaths p st) (setPaths p st') := by
  simp only [setPaths, List.foldl_cons, List.foldl_nil]
  exact setIfPresent_sameButSecrets (setIfPresent_sameButSecrets
    (setIfPresent_sameButSecrets h _ _ _ _) _ _ _ _) _ _ _ _

/-- A new SMTP password is the same one in both states; an empty one keeps theirs. -/
theorem setSmtp_sameButSecrets {st st' : State L} (h : State.SameButSecrets st st')
    (s : Json.Fields) : State.SameButSecrets (setSmtp s st) (setSmtp s st') := by
  have hfields := setIfPresent_sameButSecrets (setIfPresent_sameButSecrets
    (setIfPresent_sameButSecrets (setIfPresent_sameButSecrets (setIfPresent_sameButSecrets
      (setIfPresent_sameButSecrets h s "server" "smtp/server" fun v => .str v.toString)
      s "port" "smtp/port" fun v => .int (v.toInt 0))
      s "security" "smtp/security" fun v => .str v.toString)
      s "auth" "smtp/auth" fun v => .bool v.toBool)
      s "username" "smtp/username" fun v => .str v.toString)
      s "from" "smtp/from" fun v => .str v.toString
  simp only [setSmtp]
  split
  · split
    · exact hfields
    · exact hfields.setValue _ _
  · exact hfields

theorem oblivious_putPrefs : Oblivious (putPrefs (L := L)) := by
  refine oblivious_withAuth (oblivious_withCsrf (fun req m st st' h => ⟨?_, rfl⟩) _) _
  have hdebug : State.SameButSecrets
      (if (parseBody req).contains "debug" then
        { st.setValue "main/debug" (.bool ((parseBody req).get "debug").toBool) with
          debugLogging := ((parseBody req).get "debug").toBool } else st)
      (if (parseBody req).contains "debug" then
        { st'.setValue "main/debug" (.bool ((parseBody req).get "debug").toBool) with
          debugLogging := ((parseBody req).get "debug").toBool } else st') := by
    split
    · exact (h.setValue _ _).with_debugLogging _
    · exact h
  have hpaths := ite_sameButSecrets ((parseBody req).contains "paths")
    (setPaths_sameButSecrets hdebug ((parseBody req).get "paths").toObject) hdebug
  exact ite_sameButSecrets ((parseBody req).contains "smtp")
    (setSmtp_sameButSecrets hpaths ((parseBody req).get "smtp").toObject) hpaths

/-! ### PBS servers -/

theorem pbServerToJson_sameButSecrets {a b : PBServer} (h : a.SameButSecrets b) :
    JsonMap.pbServerToJson a false = JsonMap.pbServerToJson b false := by
  rw [h.others]
  rfl

theorem keepPbsSecrets_sameButSecrets {a b : PBServer} (h : a.SameButSecrets b) (srv : PBServer) :
    (keepPbsSecrets a srv).SameButSecrets (keepPbsSecrets b srv) := by
  rw [keepPbsSecrets_eq, keepPbsSecrets_eq]
  refine ⟨rfl, ?_, ?_⟩
  · dsimp only
    split
    · exact h.password
    · rfl
  · dsimp only
    split
    · exact h.keypass
    · rfl

theorem oblivious_getPbsList : Oblivious (getPbsList (L := L)) := by
  refine oblivious_withAuth (oblivious_reads ?_) _
  intro req st st' h
  rw [h.pbs.map_items fun a b hab => congrArg Json.obj (pbServerToJson_sameButSecrets hab)]

theorem oblivious_getPbs (uuid : String) : Oblivious (getPbs (L := L) uuid) := by
  refine oblivious_withAuth (oblivious_reads ?_) _
  intro req st st' h
  simp only [getPbsByUuid]
  rcases h.pbs.find_cases uuid with ⟨hst, hst'⟩ | ⟨a, b, hst, hst', hab⟩ <;> rw [hst, hst']
  simp only [pbServerToJson_sameButSecrets hab]

theorem oblivious_postPbs : Oblivious (postPbs (L := L)) := by
  refine oblivious_guarded ?_ _
  intro req m st st' h
  dsimp only
  split
  · exact ⟨h, rfl⟩
  · split
    · exact ⟨h, rfl⟩
    · exact ⟨h.with_pbs (h.pbs.save rfl (.refl _)), rfl⟩

theorem oblivious_putPbs (uuid : String) : Oblivious (putPbs (L := L) uuid) := by
  refine oblivious_guarded ?_ _
  intro req m st st' h
  dsimp only
  split
  · exact ⟨h, rfl⟩
  · simp only [getPbsByUuid]
    rcases h.pbs.find_cases uuid with ⟨hst, hst'⟩ | ⟨a, b, hst, hst', hab⟩ <;> rw [hst, hst']
    · exact ⟨h, rfl⟩
    · have hsaved := keepPbsSecrets_sameButSecrets hab
        { JsonMap.pbServerFromJson m.uuid (parseBody req) with uuid := uuid }
      exact ⟨h.with_pbs (h.pbs.save hsaved.uuid hsaved), rfl⟩

theorem oblivious_deletePbs (uuid : String) : Oblivious (deletePbs (L := L) uuid) := by
  refine oblivious_guarded ?_ _
  intro req m st st' h
  obtain ⟨hrel, hremoved⟩ := h.pbs.remove uuid
  dsimp only
  rw [hremoved]
  split
  · exact ⟨h, rfl⟩
  · split
    · exact ⟨h.with_pbs hrel, rfl⟩
    · exact ⟨h.with_pbs hrel, rfl⟩

/-! ### SSH servers -/

theorem sshServerToJson_sameButSecrets {a b : SSHServer} (h : a.SameButSecrets b) :
    JsonMap.sshServerToJson a false = JsonMap.sshServerToJson b false := by
  rw [JsonMap.sshServerToJson, h.hostkey, h.others]
  rfl

theorem keepSshSecrets_sameButSecrets {a b : SSHServer} (h : a.SameButSecrets b) (srv : SSHServer) :
    (keepSshSecrets a srv).SameButSecrets (keepSshSecrets b srv) := by
  rw [keepSshSecrets_eq, keepSshSecrets_eq]
  refine ⟨rfl, ?_, ?_⟩
  · dsimp only
    split
    · exact h.keypass
    · rfl
  · dsimp only
    split
    · exact h.hostkey
    · rfl

theorem oblivious_getSshList : Oblivious (getSshList (L := L)) := by
  refine oblivious_withAuth (oblivious_reads ?_) _
  intro req st st' h
  rw [h.ssh.map_items fun a b hab => congrArg Json.obj (sshServerToJson_sameButSecrets hab)]

theorem oblivious_getSsh (uuid : String) : Oblivious (getSsh (L := L) uuid) := by
  refine oblivious_withAuth (oblivious_reads ?_) _
  intro req st st' h
  simp only [getSshByUuid]
  rcases h.ssh.find_cases uuid with ⟨hst, hst'⟩ | ⟨a, b, hst, hst', hab⟩ <;> rw [hst, hst']
  simp only [sshServerToJson_sameButSecrets hab]

theorem oblivious_postSsh : Oblivious (postSsh (L := L)) := by
  refine oblivious_guarded ?_ _
  intro req m st st' h
  dsimp only
  split
  · exact ⟨h, rfl⟩
  · split
    · exact ⟨h, rfl⟩
    · exact ⟨h.with_ssh (h.ssh.save rfl (.refl _)), rfl⟩

theorem oblivious_putSsh (uuid : String) : Oblivious (putSsh (L := L) uuid) := by
  refine oblivious_guarded ?_ _
  intro req m st st' h
  dsimp only
  split
  · exact ⟨h, rfl⟩
  · simp only [getSshByUuid]
    rcases h.ssh.find_cases uuid with ⟨hst, hst'⟩ | ⟨a, b, hst, hst', hab⟩ <;> rw [hst, hst']
    · exact ⟨h, rfl⟩
    · have hsaved := keepSshSecrets_sameButSecrets hab
        { JsonMap.sshServerFromJson m.uuid (parseBody req) with uuid := uuid }
      exact ⟨h.with_ssh (h.ssh.save hsaved.uuid hsaved), rfl⟩

theorem oblivious_deleteSsh (uuid : String) : Oblivious (deleteSsh (L := L) uuid) := by
  refine oblivious_guarded ?_ _
  intro req m st st' h
  obtain ⟨hrel, hremoved⟩ := h.ssh.remove uuid
  dsimp only
  rw [hremoved]
  split
  · exact ⟨h, rfl⟩
  · split
    · exact ⟨h.with_ssh hrel, rfl⟩
    · exact ⟨h.with_ssh hrel, rfl⟩

/-! ### Jobs -/

theorem jobBodyError_sameButSecrets {st st' : State L} (h : State.SameButSecrets st st')
    (job : TiBackupJob) : jobBodyError st job = jobBodyError st' job := by
  simp only [jobBodyError, confineToScripts, h.getValue "paths/scripts" (by decide), h.host]

theorem oblivious_getJobs : Oblivious (getJobs (L := L)) := by
  refine oblivious_withAuth (oblivious_reads ?_) _
  intro req st st' h
  simp only [allJobs, jobEntry, jobStatus, h.jobs, h.manager]

theorem oblivious_getJob (name : String) : Oblivious (getJob (L := L) name) := by
  refine oblivious_withAuth (oblivious_reads ?_) _
  intro req st st' h
  simp only [getJobByName, jobResponse, jobStatus, h.jobs, h.manager]

theorem oblivious_postJob : Oblivious (postJob (L := L)) := by
  refine oblivious_guarded ?_ _
  intro req m st st' h
  have hfind : ∀ name, getJobByName st' name = getJobByName st name := fun name => by
    rw [getJobByName, getJobByName, h.jobs]
  simp only [← jobBodyError_sameButSecrets h, hfind]
  split
  · exact ⟨h, rfl⟩
  · split
    · exact ⟨h, rfl⟩
    · split
      · exact ⟨h, rfl⟩
      · rw [saveBackupJob, saveBackupJob, h.jobs]
        exact ⟨h.with_jobs _, rfl⟩

theorem oblivious_putJob (name : String) : Oblivious (putJob (L := L) name) := by
  refine oblivious_guarded ?_ _
  intro req m st st' h
  have hfind : ∀ name, getJobByName st' name = getJobByName st name := fun name => by
    rw [getJobByName, getJobByName, h.jobs]
  simp only [← jobBodyError_sameButSecrets h, hfind, h.jobs, saveBackupJob]
  split
  · exact ⟨h, rfl⟩
  · split
    · exact ⟨h, rfl⟩
    · split
      · exact ⟨h, rfl⟩
      · split
        · split
          · exact ⟨h, rfl⟩
          · split
            · exact ⟨h.with_jobs _, rfl⟩
            · exact ⟨h.with_jobs _, rfl⟩
        · exact ⟨h.with_jobs _, rfl⟩

theorem oblivious_deleteJob (name : String) : Oblivious (deleteJob (L := L) name) := by
  refine oblivious_guarded ?_ _
  intro req m st st' h
  simp only [h.jobs]
  split
  · exact ⟨h, rfl⟩
  · split
    · exact ⟨h.with_jobs _, rfl⟩
    · exact ⟨h.with_jobs _, rfl⟩

theorem oblivious_startJob (name : String) : Oblivious (startJob (L := L) name) := by
  refine oblivious_guarded ?_ _
  intro req m st st' h
  simp only [startBackup, h.manager, and_true]
  exact h.with_manager _

/-! ### Runs -/

/-- The routes that read and change preferences, servers and jobs; answering them does
not contact a remote machine. -/
def recordRoute : Route → Bool
  | .getPrefs | .putPrefs => true
  | .getPbsList | .getPbs _ | .postPbs | .putPbs _ | .deletePbs _ => true
  | .getSshList | .getSsh _ | .postSsh | .putSsh _ | .deleteSsh _ => true
  | .getJobs | .getJob _ | .postJob | .putJob _ | .deleteJob _ | .startJob _ => true
  | _ => false

theorem oblivious_handle {r : Route} (hr : recordRoute r = true) : Oblivious (handle (L := L) r) := by
  cases r with
  | getPrefs => exact oblivious_getPrefs
  | putPrefs => exact oblivious_putPrefs
  | getPbsList => exact oblivious_getPbsList
  | getPbs uuid => exact oblivious_getPbs uuid
  | postPbs => exact oblivious_postPbs
  | putPbs uuid => exact oblivious_putPbs uuid
  | deletePbs uuid => exact oblivious_deletePbs uuid
  | getSshList => exact oblivious_getSshList
  | getSsh uuid => exact oblivious_getSsh uuid
  | postSsh => exact oblivious_postSsh
  | putSsh uuid => exact oblivious_putSsh uuid
  | deleteSsh uuid => exact oblivious_deleteSsh uuid
  | getJobs => exact oblivious_getJobs
  | getJob name => exact oblivious_getJob name
  | postJob => exact oblivious_postJob
  | putJob name => exact oblivious_putJob name
  | deleteJob name => exact oblivious_deleteJob name
  | startJob name => exact oblivious_startJob name
  | _ => cases hr

/-- The API, one request after another. -/
def api (L : Library) : Machine (State L) Call Reply where
  step st c := serve c st

/-- **Secrets are write-only.** States that differ in stored secrets only, with the
same ones empty, answer every sequence of requests to the record routes alike, and
differ in stored secrets only when it is over. -/
theorem secrets_write_only {st st' : State L} (h : State.SameButSecrets st st') {calls : List Call}
    (hroutes : ∀ c ∈ calls, recordRoute c.route = true) :
    State.SameButSecrets ((api L).run st calls) ((api L).run st' calls) ∧
      (api L).outputs st calls = (api L).outputs st' calls :=
  simulation (M := api L) (N := api L)
    (fun c hc s t hst => oblivious_handle (hroutes c hc) c.req c.moment s t hst) h

/-- A PBS server with the given password. -/
def offsitePbs (password : String) : PBServer where
  uuid := "0a1b2c3d"
  name := "offsite"
  host := "pbs.example"
  port := 8007
  username := "root@pam"
  password := password
  fingerprint := "aa:bb"
  keyfile := ""
  keypass := ""

/-- A state that holds it and an SMTP password. -/
def secretState (password smtpPassword : String) : State Reference.library :=
  (savePbs Reference.initial (offsitePbs password)).setValue "smtp/password" (.str smtpPassword)

theorem secretState_sameButSecrets :
    State.SameButSecrets (secretState "a" "c2VjcmV0") (secretState "b" "b3RoZXI=") where
  others := rfl
  getValue k hk := by
    rw [secretState, secretState, State.getValue_setValue_of_ne _ hk,
      State.getValue_setValue_of_ne _ hk]
    rfl
  smtpPassword := by
    rw [secretState, secretState, State.getValue_setValue_self, State.getValue_setValue_self]
    decide
  pbs := by
    have hinitial := KeyedStore.Related.refl (S := Reference.library.pbs)
      PBServer.SameButSecrets.refl Reference.initial.pbs
    exact hinitial.save rfl ⟨rfl, by decide, by decide⟩
  ssh := KeyedStore.Related.refl SSHServer.SameButSecrets.refl Reference.initial.ssh

/-- An edit that keeps the password, and the two lists it could show up in. -/
def offsiteCalls : List Call :=
  [⟨.putPbs "0a1b2c3d", Reference.request (.obj [("name", .str "renamed")]),
      Reference.moment "11111111"⟩,
    ⟨.getPbsList, Reference.request .null, Reference.moment "22222222"⟩,
    ⟨.getPrefs, Reference.request .null, Reference.moment "33333333"⟩]

/-- The answers do not tell which of the two passwords is stored. -/
theorem secrets_write_only_offsitePbs :
    (∀ c ∈ offsiteCalls, recordRoute c.route = true) ∧
      State.SameButSecrets ((api Reference.library).run (secretState "a" "c2VjcmV0") offsiteCalls)
        ((api Reference.library).run (secretState "b" "b3RoZXI=") offsiteCalls) ∧
      (api Reference.library).outputs (secretState "a" "c2VjcmV0") offsiteCalls =
        (api Reference.library).outputs (secretState "b" "b3RoZXI=") offsiteCalls := by
  have hroutes : ∀ c ∈ offsiteCalls, recordRoute c.route = true := by
    simp [offsiteCalls, recordRoute]
  exact ⟨hroutes, secrets_write_only secretState_sameButSecrets hroutes⟩

end Api

end TiBackup
