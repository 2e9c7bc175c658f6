import TiBackup.Model.Reference
import TiBackup.Stores.Writes

/-!
# TiBackup.Stores.FolderPairs

**Which folders of a job come back.** A job body lists its folders as pairs of source and
destination, and the record keeps them in a map from sources to destinations. A source
that is listed twice has one entry there: the pairs before the last one are gone, and the
request is answered with ok.

All pairs come back exactly when the sources are distinct, in `backupdirs` and in every SSH
target (`folderPairs_kept_iff`).
-/

namespace TiBackup

open Lib

variable {L : Library}

/-- The pairs of a list of folders in JSON, read by the rules of `QJsonValue`: an entry that is
not an object reads as a pair of empty texts, and what is missing or no text as an empty one. -/
def folderPairs (v : Json) : List (String × String) :=
  v.toArray.map fun d => ((d.toObject.get "source").toString, (d.toObject.get "dest").toString)

/-- The lists of folders of a job in JSON, one for each SSH target. -/
def targetFolders (job : Json.Fields) : List (List (String × String)) :=
  (job.get "ssh_targets").toArray.map fun t => folderPairs (t.toObject.get "backupdirs")

/-- Two jobs in JSON have the same pairs of folders, their own and those of each target, in
any order. -/
structure SamePairs (a b : Json.Fields) : Prop where
  backupdirs : (folderPairs (a.get "backupdirs")).Perm (folderPairs (b.get "backupdirs"))
  targets : List.Forall₂ List.Perm (targetFolders a) (targetFolders b)

/-- No source is listed twice. -/
structure DistinctSources (job : Json.Fields) : Prop where
  backupdirs : ((folderPairs (job.get "backupdirs")).map Prod.fst).Nodup
  targets : ∀ ps ∈ targetFolders job, (ps.map Prod.fst).Nodup

/-! ### Records and bodies -/

theorem folderPairs_backupdirsToJson (dirs : StringMap String) :
    folderPairs (JsonMap.backupdirsToJson dirs) = dirs.toList := by
  rw [folderPairs, JsonMap.backupdirsToJson, Json.toArray_arr, List.map_map]
  exact List.map_id _

/-- The folders of a response are those of the record. -/
theorem folderPairs_jobResponse (st : State L) (name : String) (job : TiBackupJob) :
    folderPairs (Json.Fields.get (Api.jobResponse st name job) "backupdirs") =
      job.backupdirs.toList := by
  rw [← folderPairs_backupdirsToJson]
  simp [Api.jobResponse, JsonMap.jobToJson, Json.Fields.get, List.lookup_cons]

theorem targetFolders_jobResponse (st : State L) (name : String) (job : TiBackupJob) :
    targetFolders (Api.jobResponse st name job) =
      job.sshTargets.map fun t => t.backupdirs.toList := by
  have htargets : Json.Fields.get (Api.jobResponse st name job) "ssh_targets" =
      .arr (job.sshTargets.map JsonMap.sshTargetToJson) := by
    simp [Api.jobResponse, JsonMap.jobToJson, Json.Fields.get, List.lookup_cons]
  rw [targetFolders, htargets, Json.toArray_arr, List.map_map]
  refine List.map_congr_left ?_
  intro t _
  exact folderPairs_backupdirsToJson t.backupdirs

/-- Lists of pairs that went through a map each are the same up to order exactly when none
of them has a key twice. -/
theorem forall₂_perm_ofPairs_iff {pss : List (List (String × String))} :
    List.Forall₂ List.Perm (pss.map fun ps => (StringMap.ofPairs ps).toList) pss ↔
      ∀ ps ∈ pss, (ps.map Prod.fst).Nodup := by
  induction pss with
  | nil => simp
  | cons ps pss ih =>
    rw [List.map_cons, List.forall₂_cons, ih, StringMap.toList_ofPairs_perm_iff,
      List.forall_mem_cons]

/-- A response for the record that was read from a body has the pairs of the body exactly
when its sources are distinct. -/
theorem samePairs_iff (st : State L) (name key : String) (body : Json.Fields) :
    SamePairs (Api.jobResponse st name { JsonMap.jobFromJson body with name := key }) body ↔
      DistinctSources body := by
  have hdirs := folderPairs_jobResponse st name { JsonMap.jobFromJson body with name := key }
  have htargets : targetFolders
      (Api.jobResponse st name { JsonMap.jobFromJson body with name := key }) =
        (targetFolders body).map fun ps => (StringMap.ofPairs ps).toList := by
    rw [targetFolders_jobResponse, targetFolders, List.map_map]
    show (List.map _ ((body.get "ssh_targets").toArray.map JsonMap.sshTargetFromJson)) = _
    rw [List.map_map]
    rfl
  constructor
  · intro h
    have hperm := h.backupdirs
    have hforall := h.targets
    rw [hdirs] at hperm
    rw [htargets] at hforall
    exact ⟨StringMap.toList_ofPairs_perm_iff.mp hperm, forall₂_perm_ofPairs_iff.mp hforall⟩
  · intro h
    constructor
    · rw [hdirs]
      exact StringMap.toList_ofPairs_perm_iff.mpr h.backupdirs
    · rw [htargets]
      exact forall₂_perm_ofPairs_iff.mpr h.targets

namespace Api

/-! ### Saving and reading back -/

/-- The two requests that save a job body. -/
inductive JobWrite
  | post
  | put (name : String)

def JobWrite.handle : JobWrite → Handler L
  | .post => postJob
  | .put name => putJob name

/-- The name the job has afterwards. -/
def JobWrite.savedName (w : JobWrite) (req : Request) : String :=
  match w with
  | .post => (bodyJob req).name
  | .put name => newJobName name (bodyJob req)

/-- After an answer of ok, the job is stored under its name as it was read. -/
theorem JobWrite.stored {w : JobWrite} {st : State L} {req : Request} {m : Moment}
    (h : Answered (w.handle req m st)) :
    getJobByName (w.handle req m st).1 (w.savedName req) =
      some { bodyJob req with name := w.savedName req } := by
  cases w with
  | post =>
    rcases postJob_cases req m st with ⟨-, hrun⟩ | ⟨-, hrejected⟩
    · rw [JobWrite.handle, hrun]
      exact (L.jobs.find_save _ _ _).trans (if_pos rfl)
    · exact absurd h hrejected.1
  | put name =>
    rcases putJob_cases name req m st with ⟨-, -, -, hput⟩ | hrejected
    · exact (hput.find _).trans (if_pos rfl)
    · exact absurd h hrejected.1

/-- To a live session, GET /api/jobs/<name> gives this job and its folders. -/
def FoldersReturned (st : State L) (name : String) (req : Request) (m : Moment)
    (body : Json.Fields) : Prop :=
  ∃ fields, (getJob name req m st).2 = .now (jsonResp (.obj fields)) ∧ SamePairs fields body

/-- What is read back is the record that was read from the body. -/
theorem foldersReturned_iff {w : JobWrite} {st st' : State L} {req req' : Request} {m m' : Moment}
    {s : Session} (hok : Answered (w.handle req m st)) (hjobs : st'.jobs = (w.handle req m st).1.jobs)
    (hlive : LiveSession st' m'.now req' s) :
    FoldersReturned st' (w.savedName req) req' m' (parseBody req) ↔
      SamePairs (jobResponse (st'.validated m'.now req') (w.savedName req)
        { bodyJob req with name := w.savedName req }) (parseBody req) := by
  have hstored : getJobByName (st'.validated m'.now req') (w.savedName req) =
      some { bodyJob req with name := w.savedName req } := by
    rw [← JobWrite.stored hok, getJobByName, getJobByName, ← hjobs]
    rfl
  rw [FoldersReturned, getJob, withAuth_of_live hlive, reads, hstored]
  constructor
  · intro h
    obtain ⟨fields, hfields, hsame⟩ := h
    have hbody := congrArg Response.body (Reply.now.inj hfields)
    obtain rfl := Json.obj.inj hbody
    exact hsame
  · intro hsame
    exact ⟨_, rfl, hsame⟩

/-- **Folder pairs are kept**, exactly when the body has no source twice in one list. -/
theorem folderPairs_kept_iff {w : JobWrite} {st st' : State L} {req req' : Request} {m m' : Moment}
    {s : Session} (hok : Answered (w.handle req m st)) (hjobs : st'.jobs = (w.handle req m st).1.jobs)
    (hlive : LiveSession st' m'.now req' s) :
    FoldersReturned st' (w.savedName req) req' m' (parseBody req) ↔
      DistinctSources (parseBody req) := by
  rw [foldersReturned_iff hok hjobs hlive]
  exact samePairs_iff _ _ _ _

/-! ### Two folders -/

/-- A job with these folders. -/
def foldersBody (pairs : List (String × String)) : Json :=
  .obj [("name", .str "photos"), ("backupdirs", .arr (pairs.map fun p =>
    .obj [("source", .str p.1), ("dest", .str p.2)]))]

theorem postJob_foldersBody (pairs : List (String × String)) :
    Answered (JobWrite.post.handle (Reference.request (foldersBody pairs)) (Reference.moment "")
      Reference.initial) := by
  rcases postJob_cases (Reference.request (foldersBody pairs)) (Reference.moment "")
    Reference.initial with ⟨-, hrun⟩ | ⟨hno, -⟩
  · rw [JobWrite.handle, hrun]
    rfl
  · refine absurd ⟨Reference.csrfVerified rfl _, ?_, ?_, ?_⟩ hno
    · show validIdentifier "photos" = true
      decide
    · rfl
    · rfl

/-- The session is live when the job is read. -/
theorem liveSession_foldersBody (pairs : List (String × String)) :
    ∃ s, LiveSession (JobWrite.post.handle (Reference.request (foldersBody pairs))
      (Reference.moment "") Reference.initial).1 1 (Reference.request .null) s := by
  have hverified : CsrfVerified Reference.initial 1 (Reference.request (foldersBody pairs)) :=
    Reference.csrfVerified rfl _
  have hagain : CsrfVerified (Reference.initial.validated 1 (Reference.request (foldersBody pairs)))
      1 (Reference.request .null) := hverified.again (by decide) rfl rfl
  obtain ⟨s, hlive⟩ := hagain.live
  refine ⟨s, ?_⟩
  rcases postJob_cases (Reference.request (foldersBody pairs)) (Reference.moment "")
    Reference.initial with ⟨-, hrun⟩ | ⟨-, hrejected⟩
  · rw [JobWrite.handle, hrun]
    exact hlive
  · exact absurd (postJob_foldersBody pairs) hrejected.1

/-- Two sources are read back as two pairs. -/
theorem folderPairs_kept_two : ∃ m' : Moment,
    FoldersReturned (JobWrite.post.handle (Reference.request
        (foldersBody [("/etc", "%MNTBACKUPDIR%/etc"), ("/home", "%MNTBACKUPDIR%/home")]))
        (Reference.moment "") Reference.initial).1 "photos" (Reference.request .null) m'
      (foldersBody [("/etc", "%MNTBACKUPDIR%/etc"), ("/home", "%MNTBACKUPDIR%/home")]).toObject := by
  obtain ⟨s, hlive⟩ := liveSession_foldersBody
    [("/etc", "%MNTBACKUPDIR%/etc"), ("/home", "%MNTBACKUPDIR%/home")]
  refine ⟨Reference.moment "", (folderPairs_kept_iff (postJob_foldersBody _) rfl hlive).mpr ?_⟩
  constructor
  · decide
  · intro ps hps
    exact absurd hps List.not_mem_nil

/-- **A source with two destinations** is saved with one of them. -/
theorem folderPairs_dropped : ¬ ∀ (L : Library) (w : JobWrite) (st : State L) (req req' : Request)
    (m m' : Moment) (s : Session), Answered (w.handle req m st) →
      LiveSession (w.handle req m st).1 m'.now req' s →
        FoldersReturned (w.handle req m st).1 (w.savedName req) req' m' (parseBody req) := by
  intro hall
  obtain ⟨s, hlive⟩ := liveSession_foldersBody
    [("/home", "%MNTBACKUPDIR%/a"), ("/home", "%MNTBACKUPDIR%/b")]
  have hok := postJob_foldersBody [("/home", "%MNTBACKUPDIR%/a"), ("/home", "%MNTBACKUPDIR%/b")]
  have hreturned := hall _ _ _ _ _ _ (Reference.moment "") s hok hlive
  have hsame := (foldersReturned_iff hok rfl hlive).mp hreturned
  have hdistinct := ((samePairs_iff _ _ _ _).mp hsame).backupdirs
  exact absurd hdistinct (by decide)

end Api

end TiBackup
