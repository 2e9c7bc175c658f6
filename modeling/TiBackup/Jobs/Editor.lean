import TiBackup.Model.JobEditor
import TiBackup.Stores.Ledger
import Mathlib.Data.List.Perm.Basic

/-!
# TiBackup.Jobs.Editor

**The job editor saves what the admin changed.** Between the request for a job and the end
of `editJob` the page waits three times, and the daemon serves other requests all the time.
As long as the admin does not go on while a job is being opened (`Calm`), the job a save
sends is one that the daemon had stored under the name the save is for, with the fields the
admin assigned since (`withEdits`), whatever the editor was used for before
(`saves_the_edits`). It is stored under a free name or its own, so no other job is replaced.
A save without changes leaves the stores as they are, if nobody else changed the job
meanwhile.
-/

namespace TiBackup

open Lib Lib.Machine

variable {L : Library}

/-- The fields that were assigned, one after another. -/
def assigned (job : Json.Fields) (edits : List (String × Json)) : Json.Fields :=
  edits.foldl (fun o e => o.set e.1 e.2) job

/-- A job with some fields assigned. -/
def withEdits (job : TiBackupJob) (edits : List (String × Json)) : TiBackupJob :=
  JsonMap.jobFromJson (assigned (JsonMap.jobToJson job) edits)

theorem assigned_append (job : Json.Fields) (edits : List (String × Json)) (field : String)
    (value : Json) :
    assigned job (edits ++ [(field, value)]) = (assigned job edits).set field value :=
  List.foldl_append

theorem withEdits_nil (job : TiBackupJob) : withEdits job [] = job := by
  have hread := JsonMap.jobFromJson_toJson job []
  rwa [List.append_nil] at hread

/-! ### Objects that are read as the same job -/

/-- The objects are read alike. The status is not read, and SSH targets may carry fields that
are not. -/
structure ReadAlike (o o' : Json.Fields) : Prop where
  get : ∀ k, k ∉ ["ssh_targets", "status"] → o.get k = o'.get k
  targets : (o.get "ssh_targets").toArray.map JsonMap.sshTargetFromJson =
    (o'.get "ssh_targets").toArray.map JsonMap.sshTargetFromJson
  contains : o.contains "umount_after_backup" = o'.contains "umount_after_backup"

namespace ReadAlike

variable {o o' o'' : Json.Fields}

theorem trans (h : ReadAlike o o') (h' : ReadAlike o' o'') : ReadAlike o o'' where
  get k hk := (h.get k hk).trans (h'.get k hk)
  targets := h.targets.trans h'.targets
  contains := h.contains.trans h'.contains

theorem set (h : ReadAlike o o') (k : String) (v : Json) : ReadAlike (o.set k v) (o'.set k v) where
  get k' hk' := by
    rw [Json.Fields.get_set, Json.Fields.get_set, h.get k' hk']
  targets := by
    rw [Json.Fields.get_set, Json.Fields.get_set]
    split
    · rfl
    · exact h.targets
  contains := by
    rw [Json.Fields.contains_set, Json.Fields.contains_set, h.contains]

theorem jobFromJson (h : ReadAlike o o') : JsonMap.jobFromJson o = JsonMap.jobFromJson o' := by
  simp (disch := decide) only [JsonMap.jobFromJson, h.targets, h.contains, h.get]

/-- A field is taken away for a while. -/
theorem rebound (o : Json.Fields) (v : Json) :
    ReadAlike ((o.set "partition_uuid" v).set "partition_uuid" (o.get "partition_uuid")) o where
  get k _ := by
    rw [Json.Fields.get_set, Json.Fields.get_set]
    split
    · next hk => rw [hk]
    · rfl
  targets := by
    rw [Json.Fields.get_set, if_neg (by decide), Json.Fields.get_set, if_neg (by decide)]
  contains := by
    rw [Json.Fields.contains_set, Json.Fields.contains_set]
    rfl

/-- What `editJob` makes of the answer to its request is read as the job of the answer. -/
theorem edited (job : TiBackupJob) (status : String) :
    ReadAlike (editedJob (JsonMap.jobToJson job ++ [("status", .str status)]))
      (JsonMap.jobToJson job ++ [("status", .str status)]) where
  get k hk := by
    rw [editedJob, Json.Fields.get_set, if_neg (List.ne_of_not_mem_cons hk), Json.Fields.get_set]
    split
    · next hdirs =>
      subst hdirs
      rfl
    · rfl
  targets := by
    have htarget : ∀ t, JsonMap.sshTargetFromJson (editedTarget (JsonMap.sshTargetToJson t)) = t :=
      JsonMap.sshTargetFromJson_toJson
    show (List.map editedTarget (job.sshTargets.map JsonMap.sshTargetToJson)).map
      JsonMap.sshTargetFromJson = (job.sshTargets.map JsonMap.sshTargetToJson).map _
    rw [List.map_map, List.map_map, List.map_map]
    exact List.map_congr_left fun t _ =>
      (htarget t).trans (JsonMap.sshTargetFromJson_toJson t).symm
  contains := by
    rw [editedJob, Json.Fields.contains_set, Json.Fields.contains_set]
    rfl

/-- The status of the job is not one of its fields. -/
theorem of_status (job : TiBackupJob) (status : String) :
    ReadAlike (JsonMap.jobToJson job ++ [("status", .str status)])
      (JsonMap.jobToJson job) where
  get k hk := by
    have hne : k ≠ "status" := List.ne_of_not_mem_cons (List.not_mem_of_not_mem_cons hk)
    exact Json.Fields.get_append_of_ne _ hne _
  targets := rfl
  contains := rfl

end ReadAlike

/-! ### What the calls that wait are about -/

/-- `editJob` has the job, but its partition is not bound yet. -/
def JobCall.binds : JobCall → Bool
  | .devices _ | .nextTick _ => true
  | _ => false

namespace JobEditor

variable {s₀ s s' : JobEditor L} {es : List JobEvent}

/-- The daemon has had a job under this name, and the fields are those of the job with some
assigned. -/
def Opened (s₀ : JobEditor L) (es : List JobEvent) (name : String) (job : Json.Fields)
    (edits : List (String × Json)) : Prop :=
  ∃ base, (machine L).Once (fun s => Api.getJobByName s.daemon.state name = some base) s₀ es ∧
    ReadAlike job (assigned (JsonMap.jobToJson base) edits)

theorem Opened.append {name : String} {job : Json.Fields} {edits : List (String × Json)}
    (h : Opened s₀ es name job edits) (fs : List JobEvent) :
    Opened s₀ (es ++ fs) name job edits := by
  obtain ⟨base, honce, hread⟩ := h
  exact ⟨base, honce.append fs, hread⟩

theorem Opened.set {name : String} {job : Json.Fields} {edits : List (String × Json)}
    (h : Opened s₀ es name job edits) (field : String) (value : Json) :
    Opened s₀ es name (job.set field value) (edits ++ [(field, value)]) := by
  obtain ⟨base, honce, hread⟩ := h
  exact ⟨base, honce, assigned_append _ _ field value ▸ hread.set field value⟩

/-- What is shown in an editor that is open. -/
def Draft (s₀ : JobEditor L) (es : List JobEvent) (s : JobEditor L) : Prop :=
  if s.editorNew then s.job = assigned blankJob s.edits
  else s.editorOrigName ≠ "" ∧ Opened s₀ es s.editorOrigName s.job s.edits

/-- What a call that waits goes on with. -/
def Sound (s₀ : JobEditor L) (es : List JobEvent) (s : JobEditor L) : JobCall → Prop
  | .editJob name _ reply => name ≠ "" ∧ ∀ r, reply = some r → r.status = .ok →
      Opened s₀ es name (editedJob r.body.toObject) []
  | .devices job => s.editorNew = false ∧ s.editorOrigName ≠ "" ∧
      Opened s₀ es s.editorOrigName job []
  | .nextTick wantUuid => s.editorNew = false ∧ s.editorOrigName ≠ "" ∧ s.edits = [] ∧
      Opened s₀ es s.editorOrigName (s.job.set "partition_uuid" wantUuid) []
  | .saveJob route req edits _ => ∃ job, req.body = some (.obj job) ∧
      match route with
      | .putJob name => Opened s₀ es name job edits
      | .postJob => job = assigned blankJob edits
      | _ => False

/-- The invariant of the editor. -/
structure Consistent (s₀ : JobEditor L) (es : List JobEvent) (s : JobEditor L) : Prop where
  calls : ∀ call ∈ s.calls, Sound s₀ es s call
  single : s.calls.countP JobCall.opens ≤ 1
  shown : s.calls.any JobCall.binds = false → s.editorOpen = true → Draft s₀ es s

/-- Two states with the same job in the editor. -/
structure SameDraft (s s' : JobEditor L) : Prop where
  job : s'.job = s.job
  editorNew : s'.editorNew = s.editorNew
  editorOrigName : s'.editorOrigName = s.editorOrigName
  edits : s'.edits = s.edits

theorem Draft.keep (h : Draft s₀ es s) (hsame : SameDraft s s') (fs : List JobEvent) :
    Draft s₀ (es ++ fs) s' := by
  rw [Draft, hsame.editorNew, hsame.job, hsame.edits, hsame.editorOrigName]
  rw [Draft] at h
  split
  · next hnew => rwa [if_pos hnew] at h
  · next hnew =>
    rw [if_neg hnew] at h
    exact ⟨h.1, h.2.append fs⟩

theorem Sound.keep {call : JobCall} (h : Sound s₀ es s call) (hsame : SameDraft s s')
    (fs : List JobEvent) : Sound s₀ (es ++ fs) s' call := by
  cases call with
  | editJob name req reply => exact ⟨h.1, fun r hr hok => (h.2 r hr hok).append fs⟩
  | devices job =>
    rw [Sound, hsame.editorNew, hsame.editorOrigName]
    exact ⟨h.1, h.2.1, h.2.2.append fs⟩
  | nextTick wantUuid =>
    rw [Sound, hsame.editorNew, hsame.editorOrigName, hsame.edits, hsame.job]
    exact ⟨h.1, h.2.1, h.2.2.1, h.2.2.2.append fs⟩
  | saveJob route req edits reply =>
    obtain ⟨job, hbody, hjob⟩ := h
    refine ⟨job, hbody, ?_⟩
    cases route with
    | putJob name => exact Opened.append hjob fs
    | postJob => exact hjob
    | _ => exact hjob

/-- Other calls do not depend on what is in the editor. -/
theorem Sound.keep_of_not_binds {call : JobCall} (h : Sound s₀ es s call)
    (hbinds : call.binds = false) (s' : JobEditor L) (fs : List JobEvent) :
    Sound s₀ (es ++ fs) s' call := by
  cases call with
  | editJob name req reply => exact ⟨h.1, fun r hr hok => (h.2 r hr hok).append fs⟩
  | devices job => cases hbinds
  | nextTick wantUuid => cases hbinds
  | saveJob route req edits reply =>
    have hkept : Sound s₀ (es ++ fs) s (.saveJob route req edits reply) :=
      h.keep ⟨rfl, rfl, rfl, rfl⟩ fs
    exact hkept

/-- Nothing happens to the job or the calls. -/
theorem Consistent.keep (h : Consistent s₀ es s) (hsame : SameDraft s s')
    (hcalls : s'.calls = s.calls) (hopen : s'.editorOpen = true → s.editorOpen = true)
    (fs : List JobEvent) : Consistent s₀ (es ++ fs) s' where
  calls call hcall := (h.calls call (hcalls ▸ hcall)).keep hsame fs
  single := hcalls ▸ h.single
  shown hbinds hopened := (h.shown (hcalls ▸ hbinds) (hopen hopened)).keep hsame fs

theorem Consistent.stay (h : Consistent s₀ es s) (fs : List JobEvent) :
    Consistent s₀ (es ++ fs) s := h.keep ⟨rfl, rfl, rfl, rfl⟩ rfl id fs

/-! ### The calls but one -/

theorem opens_of_binds {call : JobCall} (h : call.opens = false) : call.binds = false := by
  cases call with
  | saveJob route req edits reply => rfl
  | _ => cases h

section

variable {calls : List JobCall} {i : Nat} {a x : JobCall}

theorem perm_eraseIdx (hi : calls[i]? = some a) : calls.Perm (a :: calls.eraseIdx i) := by
  obtain ⟨hlt, rfl⟩ := List.getElem?_eq_some_iff.mp hi
  exact (List.getElem_cons_eraseIdx_perm hlt).symm

theorem perm_set (hi : calls[i]? = some a) (x : JobCall) :
    (calls.set i x).Perm (x :: calls.eraseIdx i) := by
  obtain ⟨hlt, -⟩ := List.getElem?_eq_some_iff.mp hi
  exact List.set_perm_cons_eraseIdx hlt x

theorem opens_of_mem_eraseIdx (hsingle : calls.countP JobCall.opens ≤ 1) (hi : calls[i]? = some a)
    (ha : a.opens = true) : ∀ call ∈ calls.eraseIdx i, call.opens = false := by
  rw [(perm_eraseIdx hi).countP_eq, List.countP_cons_of_pos ha] at hsingle
  have hzero : (calls.eraseIdx i).countP JobCall.opens = 0 := by omega
  exact fun call hcall => Bool.eq_false_iff.mpr (List.countP_eq_zero.mp hzero call hcall)

theorem countP_set_le (hi : calls[i]? = some a) (hx : x.opens = true → a.opens = true) :
    (calls.set i x).countP JobCall.opens ≤ calls.countP JobCall.opens := by
  rw [(perm_set hi x).countP_eq, (perm_eraseIdx hi).countP_eq, List.countP_cons, List.countP_cons]
  cases hopens : x.opens
  · simp
  · simp [hx hopens]

end

variable {i : Nat} {a x : JobCall}

/-- One call goes on waiting for something else. -/
theorem Consistent.goes_on (h : Consistent s₀ es s) (hi : s.calls[i]? = some a)
    (hx : x.opens = true → a.opens = true) {fs : List JobEvent}
    (hcalls : s'.calls = s.calls.set i x) (hsound : Sound s₀ (es ++ fs) s' x)
    (hothers : ∀ call ∈ s.calls.eraseIdx i, Sound s₀ (es ++ fs) s' call)
    (hshown : (s.calls.set i x).any JobCall.binds = false → s'.editorOpen = true →
      Draft s₀ (es ++ fs) s') : Consistent s₀ (es ++ fs) s' where
  calls call hcall := by
    rw [hcalls] at hcall
    rcases List.mem_cons.mp ((perm_set hi x).mem_iff.mp hcall) with rfl | hcall
    · exact hsound
    · exact hothers call hcall
  single := hcalls ▸ (countP_set_le hi hx).trans h.single
  shown := hcalls ▸ hshown

/-- One call is over. -/
theorem Consistent.over (h : Consistent s₀ es s) {fs : List JobEvent}
    (hcalls : s'.calls = s.calls.eraseIdx i)
    (hothers : ∀ call ∈ s.calls.eraseIdx i, Sound s₀ (es ++ fs) s' call)
    (hshown : (s.calls.eraseIdx i).any JobCall.binds = false → s'.editorOpen = true →
      Draft s₀ (es ++ fs) s') : Consistent s₀ (es ++ fs) s' where
  calls := hcalls ▸ hothers
  single := hcalls ▸ ((List.eraseIdx_sublist _ _).countP_le).trans h.single
  shown := hcalls ▸ hshown

theorem Consistent.others (h : Consistent s₀ es s) (hsame : SameDraft s s') (fs : List JobEvent) :
    ∀ call ∈ s.calls.eraseIdx i, Sound s₀ (es ++ fs) s' call :=
  fun call hcall => (h.calls call (List.mem_of_mem_eraseIdx hcall)).keep hsame fs

theorem Consistent.others_of_opens (h : Consistent s₀ es s) (hi : s.calls[i]? = some a)
    (ha : a.opens = true) (s' : JobEditor L) (fs : List JobEvent) :
    ∀ call ∈ s.calls.eraseIdx i, Sound s₀ (es ++ fs) s' call := fun call hcall =>
  (h.calls call (List.mem_of_mem_eraseIdx hcall)).keep_of_not_binds
    (opens_of_binds (opens_of_mem_eraseIdx h.single hi ha call hcall)) s' fs

theorem any_binds (hi : s.calls[i]? = some a) :
    s.calls.any JobCall.binds = (a.binds || (s.calls.eraseIdx i).any JobCall.binds) :=
  (perm_eraseIdx hi).any_eq

theorem any_binds_set (hi : s.calls[i]? = some a) :
    (s.calls.set i x).any JobCall.binds = (x.binds || (s.calls.eraseIdx i).any JobCall.binds) :=
  (perm_set hi x).any_eq

/-! ### What the admin does -/

/-- The admin does not go on while a job is being opened: no second job is opened, and
nothing else is done until the partition is bound. -/
def Calm (s : JobEditor L) : JobEvent → Prop
  | .editJob _ => s.calls.any JobCall.opens = false
  | .newJob | .edit _ _ | .onDeviceChange _ | .saveJob => s.calls.any JobCall.binds = false
  | _ => True

/-- As long as nothing is bound later, the job in the editor may change. -/
theorem Consistent.calls_of_not_binds (h : Consistent s₀ es s)
    (hbinds : s.calls.any JobCall.binds = false) (s' : JobEditor L) (fs : List JobEvent) :
    ∀ call ∈ s.calls, Sound s₀ (es ++ fs) s' call := fun call hcall =>
  (h.calls call hcall).keep_of_not_binds (by simpa using List.any_eq_false.mp hbinds call hcall)
    s' fs

theorem Consistent.newJob (h : Consistent s₀ es s) (hbinds : s.calls.any JobCall.binds = false)
    (fs : List JobEvent) : Consistent s₀ (es ++ fs) s.newJob where
  calls := h.calls_of_not_binds hbinds s.newJob fs
  single := h.single
  shown _ _ := by
    rw [Draft]
    exact rfl

theorem Draft.edit (h : Draft s₀ es s) (field : String) (value : Json) :
    Draft s₀ es (s.edit field value) := by
  have hnew : (s.edit field value).editorNew = s.editorNew := rfl
  have hjob : (s.edit field value).job = s.job.set field value := rfl
  have hedits : (s.edit field value).edits = s.edits ++ [(field, value)] := rfl
  rw [Draft, hnew, hjob, hedits]
  rw [Draft] at h
  split
  · next hnew =>
    rw [if_pos hnew] at h
    rw [h, assigned_append]
  · next hnew =>
    rw [if_neg hnew] at h
    exact ⟨h.1, h.2.set field value⟩

theorem Consistent.edit (h : Consistent s₀ es s) (hbinds : s.calls.any JobCall.binds = false)
    (field : String) (value : Json) (fs : List JobEvent) :
    Consistent s₀ (es ++ fs) (s.edit field value) where
  calls := h.calls_of_not_binds hbinds _ fs
  single := h.single
  shown _ hopen := ((h.shown hbinds hopen).edit field value).keep ⟨rfl, rfl, rfl, rfl⟩ fs

theorem Consistent.onDeviceChange (h : Consistent s₀ es s)
    (hbinds : s.calls.any JobCall.binds = false) (devname : String) (fs : List JobEvent) :
    Consistent s₀ (es ++ fs) (s.onDeviceChange devname) := by
  have hsame : SameDraft s { s with editorDevname := devname } := ⟨rfl, rfl, rfl, rfl⟩
  have hchosen := h.keep hsame rfl id []
  rw [List.append_nil] at hchosen
  have hcleared := hchosen.edit hbinds "partition_uuid" (.str "") []
  rw [List.append_nil] at hcleared
  exact hcleared.edit hbinds "device" _ fs

/-- The page sends one more request. -/
theorem Consistent.sends (h : Consistent s₀ es s) (hsame : SameDraft s s') {fs : List JobEvent}
    (hcalls : s'.calls = s.calls ++ [x])
    (hopens : s.calls.any JobCall.opens = false ∨ x.opens = false)
    (hopen : s'.editorOpen = true → s.editorOpen = true) (hsound : Sound s₀ (es ++ fs) s' x) :
    Consistent s₀ (es ++ fs) s' where
  calls call hcall := by
    rw [hcalls] at hcall
    rcases List.mem_append.mp hcall with hcall | hcall
    · exact (h.calls call hcall).keep hsame fs
    · exact List.mem_singleton.mp hcall ▸ hsound
  single := by
    rw [hcalls, List.countP_append]
    rcases hopens with hnone | hx
    · have hzero : s.calls.countP JobCall.opens = 0 := List.countP_eq_zero.mpr fun call hcall =>
        List.any_eq_false.mp hnone call hcall
      rw [hzero, Nat.zero_add]
      exact List.countP_le_length
    · rw [List.countP_singleton, hx]
      exact h.single
  shown hshown hopened := by
    rw [hcalls, List.any_append, Bool.or_eq_false_iff] at hshown
    exact (h.shown hshown.1 (hopen hopened)).keep hsame fs

theorem Consistent.editJob (h : Consistent s₀ es s) (hopens : s.calls.any JobCall.opens = false)
    (name : String) (fs : List JobEvent) : Consistent s₀ (es ++ fs) (s.editJob name) := by
  rw [JobEditor.editJob]
  split
  · exact h.stay fs
  · next hname =>
    have hsame : SameDraft s
        { s with calls := s.calls ++ [.editJob name { cookie := s.cookie } none] } :=
      ⟨rfl, rfl, rfl, rfl⟩
    refine h.sends hsame rfl (.inl hopens) id ?_
    refine ⟨fun heq => hname (by simp [heq]), fun r hr => ?_⟩
    cases hr

theorem Consistent.saveJob (h : Consistent s₀ es s) (hbinds : s.calls.any JobCall.binds = false)
    (hopen : s.editorOpen = true) (fs : List JobEvent) :
    Consistent s₀ (es ++ fs) s.saveJob := by
  have hdraft := h.shown hbinds hopen
  have hsame : SameDraft s s.saveJob := by
    rw [JobEditor.saveJob]
    split
    · exact ⟨rfl, rfl, rfl, rfl⟩
    · exact ⟨rfl, rfl, rfl, rfl⟩
  rw [JobEditor.saveJob] at hsame ⊢
  split
  · exact h.stay fs
  · next hname =>
    rw [if_neg hname] at hsame
    refine h.sends hsame rfl (.inr rfl) id ⟨s.job, rfl, ?_⟩
    rw [Draft] at hdraft
    cases hnew : s.editorNew with
    | true =>
      rw [hnew] at hdraft
      exact hdraft
    | false =>
      rw [hnew] at hdraft
      obtain ⟨hname, hopened⟩ := hdraft
      have hkept := hopened.append fs
      simpa [hname] using hkept

/-! ### What the daemon answers -/

/-- The answer to a request for a job shows the one that is stored. -/
theorem job_of_answer {p : Process L} {name : String} {req : Request} {m : Moment} {c : Call}
    {r : Response}
    (h : (Process.machine L).out p (.main (.request ⟨.getJob name, req, m⟩)) = some (c, r))
    (hok : r.status = .ok) : ∃ base status, Api.getJobByName p.state name = some base ∧
      r.body = .obj (JsonMap.jobToJson base ++ [("status", .str status)]) := by
  have hout : Process.ready ⟨.getJob name, req, m⟩ (Api.getJob name req m p.state).2 =
    some (c, r) := h
  by_cases hlive : ∃ session, LiveSession p.state m.now req session
  · obtain ⟨session, hsession⟩ := hlive
    rw [Api.getJob, Api.withAuth_of_live hsession, Api.reads] at hout
    cases hfound : Api.getJobByName (p.state.validated m.now req) name with
    | none =>
      rw [hfound] at hout
      obtain ⟨-, rfl⟩ := Prod.mk.inj (Option.some.inj hout)
      cases hok
    | some base =>
      rw [hfound] at hout
      obtain ⟨-, rfl⟩ := Prod.mk.inj (Option.some.inj hout)
      exact ⟨base, _, hfound, rfl⟩
  · rw [Api.getJob, Api.withAuth_of_not_live (not_exists.mp hlive)] at hout
    obtain ⟨-, rfl⟩ := Prod.mk.inj (Option.some.inj hout)
    cases hok

theorem opened_of_answer (hs : (machine L).run s₀ es = s) {name : String} {req : Request}
    {m : Moment} {c : Call} {r : Response}
    (h : (Process.machine L).out s.daemon (.main (.request ⟨.getJob name, req, m⟩)) = some (c, r))
    (hok : r.status = .ok) : Opened s₀ es name (editedJob r.body.toObject) [] := by
  obtain ⟨base, status, hfound, hbody⟩ := job_of_answer h hok
  refine ⟨base, once_of_run (hs ▸ hfound), ?_⟩
  rw [hbody]
  exact (ReadAlike.edited base status).trans (ReadAlike.of_status base status)

theorem Consistent.elsewhere (h : Consistent s₀ es s) (p : Process L) (fs : List JobEvent) :
    Consistent s₀ (es ++ fs) { s with daemon := p } := by
  have hsame : SameDraft s { s with daemon := p } := ⟨rfl, rfl, rfl, rfl⟩
  exact h.keep hsame rfl id fs

theorem Consistent.serve (h : Consistent s₀ es s) (hi : s.calls[i]? = some a) {c : Call}
    {answered : Response → JobCall} (hopens : ∀ r, (answered r).opens = a.opens)
    (hbinds : ∀ r, (answered r).binds = a.binds) (fs : List JobEvent)
    (hsound : ∀ c' r, (Process.machine L).out s.daemon (.main (.request c)) = some (c', r) →
      Sound s₀ es s (answered r)) : Consistent s₀ (es ++ fs) (s.serve i c answered) := by
  rw [JobEditor.serve]
  dsimp only
  split
  · next c' r hout =>
    refine h.goes_on hi (fun hx => (hopens r).symm.trans hx) rfl
      ((hsound c' r hout).keep ⟨rfl, rfl, rfl, rfl⟩ fs) (h.others ⟨rfl, rfl, rfl, rfl⟩ fs) ?_
    intro hshown hopen
    rw [any_binds_set hi, hbinds r, ← any_binds hi] at hshown
    exact (h.shown hshown hopen).keep ⟨rfl, rfl, rfl, rfl⟩ fs
  · exact h.elsewhere _ fs

/-! ### What the page goes on with -/

/-- A call ends that is not about to bind a job. -/
theorem Consistent.ended (h : Consistent s₀ es s) (hi : s.calls[i]? = some a)
    (hbinds : a.binds = false) (hsame : SameDraft s s') (hcalls : s'.calls = s.calls.eraseIdx i)
    (hopen : s'.editorOpen = true → s.editorOpen = true) (fs : List JobEvent) :
    Consistent s₀ (es ++ fs) s' := by
  refine h.over hcalls (h.others hsame fs) (fun hshown hopened => ?_)
  have hnone : s.calls.any JobCall.binds = false := by
    rw [any_binds hi, hbinds, hshown]
    rfl
  exact (h.shown hnone (hopen hopened)).keep hsame fs

theorem Consistent.editJobLoaded (h : Consistent s₀ es s) {name : String} {req : Request}
    {r : Response} (hi : s.calls[i]? = some (.editJob name req (some r))) (fs : List JobEvent) :
    Consistent s₀ (es ++ fs) (s.editJobLoaded i name r) := by
  have hsound := h.calls _ (List.mem_of_getElem? hi)
  rw [JobEditor.editJobLoaded]
  split
  · next hok =>
    refine h.goes_on hi (fun _ => rfl) rfl ⟨rfl, hsound.1, (hsound.2 r rfl hok).append fs⟩
      (h.others_of_opens hi rfl _ fs) (fun hshown => ?_)
    rw [any_binds_set hi] at hshown
    cases hshown
  · have hsame : SameDraft s { s with calls := s.calls.eraseIdx i } := ⟨rfl, rfl, rfl, rfl⟩
    exact h.ended hi rfl hsame rfl id fs

theorem Consistent.editJobPrepared (h : Consistent s₀ es s) {job : Json.Fields}
    (hi : s.calls[i]? = some (.devices job)) (fs : List JobEvent) :
    Consistent s₀ (es ++ fs) (s.editJobPrepared i job) := by
  obtain ⟨hnew, hname, base, honce, hread⟩ := h.calls _ (List.mem_of_getElem? hi)
  refine h.goes_on hi (fun _ => rfl) rfl ⟨hnew, hname, rfl, base, honce.append fs, ?_⟩
    (h.others_of_opens hi rfl _ fs) (fun hshown => ?_)
  · exact (ReadAlike.rebound job (.str "")).trans hread
  · rw [any_binds_set hi] at hshown
    cases hshown

theorem Consistent.editJobBound (h : Consistent s₀ es s) {wantUuid : Json}
    (hi : s.calls[i]? = some (.nextTick wantUuid)) (fs : List JobEvent) :
    Consistent s₀ (es ++ fs) (s.editJobBound i wantUuid) := by
  obtain ⟨hnew, hname, hedits, hopened⟩ := h.calls _ (List.mem_of_getElem? hi)
  refine h.over rfl (h.others_of_opens hi rfl _ fs) (fun _ _ => ?_)
  have hnew : (s.editJobBound i wantUuid).editorNew = false := hnew
  have hedits : (s.editJobBound i wantUuid).edits = [] := hedits
  rw [Draft, hnew, hedits]
  exact ⟨hname, hopened.append fs⟩

/-! ### Runs -/

/-- The daemon serves the request of a call that waits for it. -/
theorem Consistent.step_serve (h : Consistent s₀ es s) (hs : (machine L).run s₀ es = s) (i : Nat)
    (m : Moment) (fs : List JobEvent) :
    Consistent s₀ (es ++ fs) (JobEditor.step s (.serve i m)) := by
  rw [JobEditor.step]
  split
  · next name req hi =>
    have hopens : ∀ r, (JobCall.editJob name req (some r)).opens = true := fun _ => rfl
    have hbinds : ∀ r, (JobCall.editJob name req (some r)).binds = false := fun _ => rfl
    refine h.serve hi hopens hbinds _ (fun c r hout => ?_)
    refine ⟨(h.calls _ (List.mem_of_getElem? hi)).1, fun r' hr hok => ?_⟩
    obtain rfl := Option.some.inj hr
    exact opened_of_answer hs hout hok
  · next route req edits hi =>
    have hopens : ∀ r, (JobCall.saveJob route req edits (some r)).opens = false := fun _ => rfl
    have hbinds : ∀ r, (JobCall.saveJob route req edits (some r)).binds = false := fun _ => rfl
    have hsound : Sound s₀ es s (.saveJob route req edits none) :=
      h.calls _ (List.mem_of_getElem? hi)
    exact h.serve hi hopens hbinds _ (fun _ _ _ => hsound)
  · exact h.stay _

/-- An answer arrives. -/
theorem Consistent.step_answer (h : Consistent s₀ es s) (i : Nat) (fs : List JobEvent) :
    Consistent s₀ (es ++ fs) (JobEditor.step s (.answer i)) := by
  rw [JobEditor.step]
  split
  · next name req r hi => exact h.editJobLoaded hi _
  · next route req edits r hi =>
    have hsame : SameDraft s (s.saveJobDone i r) := ⟨rfl, rfl, rfl, rfl⟩
    refine h.ended hi rfl hsame rfl (fun hopen => ?_) _
    rw [saveJobDone] at hopen
    dsimp only at hopen
    split at hopen
    · cases hopen
    · exact hopen
  · exact h.stay _

theorem Consistent.step_fail (h : Consistent s₀ es s) (i : Nat) (fs : List JobEvent) :
    Consistent s₀ (es ++ fs) (JobEditor.step s (.fail i)) := by
  rw [JobEditor.step]
  split
  · next name req reply hi =>
    have hsame : SameDraft s { s with calls := s.calls.eraseIdx i } := ⟨rfl, rfl, rfl, rfl⟩
    exact h.ended hi rfl hsame rfl id _
  · next route req edits reply hi =>
    have hsame : SameDraft s { s with busy := false, calls := s.calls.eraseIdx i } :=
      ⟨rfl, rfl, rfl, rfl⟩
    exact h.ended hi rfl hsame rfl id _
  · exact h.stay _

/-- **One event.** -/
theorem Consistent.step (h : Consistent s₀ es s) (hs : (machine L).run s₀ es = s) {e : JobEvent}
    (hcalm : Calm s e) : Consistent s₀ (es ++ [e]) (JobEditor.step s e) := by
  cases e with
  | newJob => exact h.newJob hcalm _
  | editJob name => exact h.editJob hcalm name _
  | edit field value =>
    rw [JobEditor.step]
    split
    · exact h.edit hcalm field value _
    · exact h.stay _
  | onDeviceChange devname =>
    rw [JobEditor.step]
    split
    · exact h.onDeviceChange hcalm devname _
    · exact h.stay _
  | saveJob =>
    rw [JobEditor.step]
    split
    · next hopen => exact h.saveJob hcalm (Bool.and_eq_true_iff.mp hopen).1 _
    · exact h.stay _
  | cancel =>
    have hsame : SameDraft s { s with editorOpen := false } := ⟨rfl, rfl, rfl, rfl⟩
    exact h.keep hsame rfl (fun hopen => by cases hopen) _
  | devices list =>
    have hsame : SameDraft s { s with devices := list } := ⟨rfl, rfl, rfl, rfl⟩
    exact h.keep hsame rfl id _
  | elsewhere e => exact h.elsewhere _ _
  | serve i m => exact h.step_serve hs i m _
  | answer i => exact h.step_answer i _
  | fail i => exact h.step_fail i _
  | prepared i =>
    rw [JobEditor.step]
    split
    · next job hi => exact h.editJobPrepared hi _
    · exact h.stay _
  | tick i =>
    rw [JobEditor.step]
    split
    · next wantUuid hi => exact h.editJobBound hi _
    · exact h.stay _

theorem consistent_start (p : Process L) (cookie csrf : String) :
    Consistent (start p cookie csrf) [] (start p cookie csrf) where
  calls := by simp [start]
  single := Nat.zero_le 1
  shown _ hopen := by cases hopen

theorem consistent_run {p : Process L} {cookie csrf : String} (es : List JobEvent)
    (hcalm : (machine L).Along Calm (start p cookie csrf) es) :
    Consistent (start p cookie csrf) es ((machine L).run (start p cookie csrf) es) := by
  induction es using List.reverseRecOn with
  | nil => exact consistent_start p cookie csrf
  | append_singleton es e ih =>
    obtain ⟨hcalm, hlast⟩ := along_append.mp hcalm
    rw [run_append]
    exact (ih hcalm).step rfl hlast.1

/-- The daemon serves a save. -/
theorem tables_served {i : Nat} {route : Route} {req : Request} {edits : List (String × Json)}
    {m : Moment} (hcall : s.calls[i]? = some (.saveJob route req edits none))
    (hok : Api.Answered (Api.serve ⟨route, req, m⟩ s.daemon.state)) :
    Api.tables ((machine L).next s (.serve i m)).daemon.state =
      (Api.tables s.daemon.state).applyIf
        (Api.requested (Api.tables s.daemon.state) ⟨route, req, m⟩) := by
  have hnext : (machine L).next s (.serve i m) = s.serve i ⟨route, req, m⟩
      fun r => .saveJob route req edits (some r) := by
    show JobEditor.step s (.serve i m) = _
    rw [JobEditor.step, hcall]
  have hdaemon : ((machine L).next s (.serve i m)).daemon.state =
      (Api.serve ⟨route, req, m⟩ s.daemon.state).1 := by
    rw [hnext, JobEditor.serve]
    dsimp only
    split
    · rfl
    · rfl
  rw [hdaemon, Api.tables_serve, if_pos hok]

/-- A job that is put where it is. -/
theorem apply_putJob_stored {T : Tables} {name : String} {job : TiBackupJob}
    (h : T.jobs name = some job) (hname : job.name = name) :
    T.apply (.putJob (some name) job) = T := by
  refine Tables.ext (funext fun k => ?_) rfl rfl
  simp only [Tables.apply, Option.some.injEq]
  split
  · next hk => rw [hk, hname, h]
  · next hk => rw [if_neg fun heq => hk (heq.trans hname.symm)]

/-- A job that is put keeps its name or takes a free one, -/
theorem free_of_putJob {st : State L} {name : String} {req : Request} {m : Moment}
    (hok : Api.Answered (Api.serve ⟨.putJob name, req, m⟩ st)) :
    Api.newJobName name (Api.bodyJob req) = name ∨
      (Api.tables st).jobs (Api.newJobName name (Api.bodyJob req)) = none := by
  rcases Api.putJob_cases name req m st with ⟨-, -, -, hput⟩ | ⟨hno, -⟩
  · exact hput.free
  · exact absurd hok hno

/-- a job that is added takes a free one. -/
theorem free_of_postJob {st : State L} {req : Request} {m : Moment}
    (hok : Api.Answered (Api.serve ⟨.postJob, req, m⟩ st)) :
    (Api.tables st).jobs (Api.bodyJob req).name = none := by
  rcases Api.postJob_cases req m st with ⟨⟨-, -, -, hfree⟩, -⟩ | ⟨-, hno, -⟩
  · exact hfree
  · exact absurd hok hno

/-- **The job editor saves what the admin changed.** When the daemon answers a save of the page
with ok, the job under the name the save is for is replaced by one the daemon has had there,
with the fields the admin assigned since it was opened; or a new job with such fields is added.
Its name was free or is the one the save is for, so no other job is lost. A save without changes
leaves the stores alone if the job is still the one that was opened. -/
theorem saves_the_edits (p : Process L) (cookie csrf : String) {es : List JobEvent}
    (hcalm : (machine L).Along Calm (start p cookie csrf) es) {i : Nat} {route : Route}
    {req : Request} {edits : List (String × Json)} (m : Moment)
    (hcall : ((machine L).run (start p cookie csrf) es).calls[i]? =
      some (.saveJob route req edits none))
    (hok : Api.Answered (Api.serve ⟨route, req, m⟩
      ((machine L).run (start p cookie csrf) es).daemon.state)) :
    let s := (machine L).run (start p cookie csrf) es
    let T := Api.tables s.daemon.state
    let T' := Api.tables ((machine L).next s (.serve i m)).daemon.state
    (∃ name base, route = .putJob name ∧
      (machine L).Once (fun s => Api.getJobByName s.daemon.state name = some base)
        (start p cookie csrf) es ∧
      (Api.newJobName name (withEdits base edits) = name ∨
        T.jobs (Api.newJobName name (withEdits base edits)) = none) ∧
      T' = T.apply (.putJob (some name) { withEdits base edits with
        name := Api.newJobName name (withEdits base edits) }) ∧
      (edits = [] → T.jobs name = some base → T' = T)) ∨
    route = .postJob ∧
      T.jobs (JsonMap.jobFromJson (assigned blankJob edits)).name = none ∧
      T' = T.apply (.putJob none (JsonMap.jobFromJson (assigned blankJob edits))) := by
  intro s T T'
  have hsound : Sound (start p cookie csrf) es s (.saveJob route req edits none) :=
    (consistent_run es hcalm).calls _ (List.mem_of_getElem? hcall)
  have hserved : T' = T.applyIf (Api.requested T ⟨route, req, m⟩) := tables_served hcall hok
  obtain ⟨job, hbody, hjob⟩ := hsound
  have hparsed : parseBody req = job := parseBody_obj hbody
  cases route with
  | putJob name =>
    obtain ⟨base, honce, hread⟩ := hjob
    have hsaved : Api.bodyJob req = withEdits base edits := by
      rw [Api.bodyJob, hparsed, hread.jobFromJson]
      rfl
    have hput : T' = T.apply (.putJob (some name) { withEdits base edits with
        name := Api.newJobName name (withEdits base edits) }) := by
      rw [hserved, ← hsaved]
      rfl
    have hfree := free_of_putJob hok
    rw [hsaved] at hfree
    refine .inl ⟨name, base, rfl, honce, hfree, hput, fun hnone hstored => ?_⟩
    have hname : base.name = name := L.jobs.key_of_find hstored
    subst hname
    have hkept : Api.newJobName base.name base = base.name := ite_self _
    rw [hput, hnone, withEdits_nil, hkept]
    exact apply_putJob_stored hstored rfl
  | postJob =>
    have hfree := free_of_postJob hok
    rw [← hjob, ← hparsed]
    refine .inr ⟨rfl, hfree, ?_⟩
    rw [hserved]
    rfl
  | _ => exact hjob.elim

/-! ### A job that is renamed -/

/-- A page whose job is opened and gets another name, -/
def renameRun : List JobEvent :=
  [.editJob "nightly", .serve 0 (Reference.moment ""), .answer 0, .prepared 0, .tick 0,
    .edit "name" (.str "daily"), .saveJob]

/-- of a daemon with one job. -/
def oneJob : Process Reference.library where
  main := { state := Api.saveBackupJob Reference.initial { name := "nightly" }
            schedulerState := ∅ }
  pool := []

def opened : JobEditor Reference.library := start oneJob "tibackup_sid=sid" "csrf"

theorem calm_renameRun : (machine _).Along Calm opened renameRun :=
  ⟨rfl, trivial, trivial, trivial, trivial, rfl, rfl, trivial⟩

/-- The request of the save. -/
def renameRequest : Request where
  cookie := "tibackup_sid=sid"
  csrfToken := "csrf"
  body := some (.obj ((editedJob (JsonMap.jobToJson { name := "nightly" } ++
    [("status", .str "standby")])).set "name" (.str "daily")))

theorem calls_renameRun : ((machine _).run opened renameRun).calls[0]? =
    some (.saveJob (.putJob "nightly") renameRequest [("name", .str "daily")] none) := by
  rfl

theorem answered_renameRequest : Api.Answered (Api.serve
    ⟨.putJob "nightly", renameRequest, Reference.moment ""⟩
      ((machine _).run opened renameRun).daemon.state) := by
  unfold Api.Answered
  decide +kernel

/-- The job that was opened is stored under its new name, which was free, with nothing else
changed. -/
theorem saves_the_edits_renameRun :
    ∃ base, (machine _).Once (fun s => Api.getJobByName s.daemon.state "nightly" = some base)
        opened renameRun ∧
      (Api.newJobName "nightly" (withEdits base [("name", .str "daily")]) = "nightly" ∨
        (Api.tables ((machine _).run opened renameRun).daemon.state).jobs
          (Api.newJobName "nightly" (withEdits base [("name", .str "daily")])) = none) ∧
      Api.tables ((machine _).next ((machine _).run opened renameRun)
          (.serve 0 (Reference.moment ""))).daemon.state =
        (Api.tables ((machine _).run opened renameRun).daemon.state).apply
          (.putJob (some "nightly") { withEdits base [("name", .str "daily")] with
            name := Api.newJobName "nightly" (withEdits base [("name", .str "daily")]) }) := by
  rcases saves_the_edits oneJob "tibackup_sid=sid" "csrf" calm_renameRun (Reference.moment "")
    calls_renameRun answered_renameRequest with
      ⟨name, base, hroute, honce, hfree, hsaved, -⟩ | ⟨hroute, -⟩
  · obtain rfl := Route.putJob.inj hroute
    exact ⟨base, honce, hfree, hsaved⟩
  · cases hroute

end JobEditor

end TiBackup
