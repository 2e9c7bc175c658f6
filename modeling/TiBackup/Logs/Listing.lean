import TiBackup.Logs.Names
import TiBackup.Logs.Preview

/-!
# TiBackup.Logs.Listing

**Every listed log can be opened**, and every log is listed. A job writes run logs
`<logs>/<detail folder>/<date>__<job>.log` and rsync logs `<logs>/<job>/<date>_<index>.log`.
What `validIdentifier` accepts as a job name is more than what these files can be found
under: with `..` in the name a run log is listed but not opened, and folders with the name
of the detail folder or with a leading dot are not listed at all.

To open a log is to be answered with the text of the file (`Shows`). Of a log over the cap
of the view, which is larger with `full=1`, only a tail is answered.

`logs_open_iff` says for which logs all is well.
-/

namespace TiBackup

open Lib

variable {L : Library}

/-! ### The logs of jobs -/

inductive LogKind
  | run
  | rsync (index : Nat)
  deriving Repr, DecidableEq

/-- A log that a job has written. -/
structure JobLog where
  kind : LogKind
  date : String
  job : String
  content : Bytes
  plain : Api.plainFileName date = true
  accepted : validIdentifier job = true

namespace JobLog

/-- The name of the file without `.log`. -/
def base (l : JobLog) : String :=
  match l.kind with
  | .run => l.date ++ "__" ++ l.job
  | .rsync index => l.date ++ "_" ++ toString index

def fileName (l : JobLog) : String := l.base ++ ".log"

/-- The folder in the folder of the logs; `detail` is the one for run logs. -/
def folder (detail : String) (l : JobLog) : String :=
  match l.kind with
  | .run => detail
  | .rsync _ => l.job

/-- Nothing in the name is in the way of finding the log. -/
def Reachable (detail : String) (l : JobLog) : Prop :=
  l.date.toList.head? ≠ some '.' ∧
    match l.kind with
    | .run => ¬ ['.', '.'] <:+: l.job.toList
    | .rsync _ => l.job ≠ detail ∧ l.job.toList.head? ≠ some '.'

instance (detail : String) (l : JobLog) : Decidable (l.Reachable detail) :=
  match l with
  | { kind := .run, .. } => inferInstanceAs (Decidable (_ ∧ _))
  | { kind := .rsync _, .. } => inferInstanceAs (Decidable (_ ∧ _))

end JobLog

/-- Names with a leading dot are left out of listings. -/
def Hidden (name : String) : Prop := name.toList.head? = some '.'

/-- The folder of the logs of a daemon. -/
def logsRoot (st : State L) : String := (st.getValue "paths/logs").toString

/-- The folder of the logs has these logs in it and no others, and folders are listed
without what is hidden. -/
structure HoldsLogs (st : State L) (logs : List JobLog) : Prop where
  detailDir : L.getLogsDetailDir st.conf = logsRoot st ++ "/" ++ L.system.backupDetailFolder
  detailName : validIdentifier L.system.backupDetailFolder = true
  folders : ∀ name, name ∈ (L.system.entryInfoList st.host (logsRoot st) .dirs).map
      FileInfo.fileName ↔
    ¬ Hidden name ∧ ∃ l ∈ logs, l.folder L.system.backupDetailFolder = name
  files : ∀ folder, validIdentifier folder = true → ∀ name,
    name ∈ (L.system.entryInfoList st.host (logsRoot st ++ "/" ++ folder) .logFiles).map
        FileInfo.fileName ↔
      ¬ Hidden name ∧ ∃ l ∈ logs, l.folder L.system.backupDetailFolder = folder ∧ l.fileName = name
  content : ∀ l ∈ logs, L.system.readFile st.host
    (logsRoot st ++ "/" ++ l.folder L.system.backupDetailFolder ++ "/" ++ l.base ++ ".log") =
      some l.content

/-! ### What is listed -/

/-- The jobs and files of a list of rsync logs. -/
def listedRsync : Reply → List (String × String)
  | .now r => r.body.toArray.map fun j =>
    ((j.toObject.get "job").toString, (j.toObject.get "file").toString)
  | .later _ => []

/-- What follows the date stamp and an underscore. -/
def JobLog.stem (l : JobLog) : List Char :=
  match l.kind with
  | .run => '_' :: l.job.toList
  | .rsync index => (toString index).toList

theorem JobLog.toList_base (l : JobLog) : l.base.toList = l.date.toList ++ '_' :: l.stem := by
  rw [JobLog.base, JobLog.stem]
  cases l.kind with
  | run => simp
  | rsync index => simp

theorem isDigit_toString {n : Nat} {c : Char} (h : c ∈ (toString n).toList) : c.isDigit = true := by
  rw [Nat.toString_eq_repr, Nat.toList_repr] at h
  exact Nat.isDigit_of_mem_toDigits (by decide) (by decide) h

theorem JobLog.slash_not_mem_stem (l : JobLog) : '/' ∉ l.stem := by
  intro hmem
  rw [JobLog.stem] at hmem
  split at hmem
  · rcases List.mem_cons.mp hmem with heq | hmem
    · exact absurd heq (by decide)
    · exact absurd (chars_of_validIdentifier l.accepted _ hmem) (by decide)
  · exact absurd (isDigit_toString hmem) (by decide)

theorem JobLog.dots_stem_iff (l : JobLog) : ['.', '.'] <:+: l.stem ↔
    l.kind = .run ∧ ['.', '.'] <:+: l.job.toList := by
  rw [JobLog.stem]
  cases l.kind with
  | run => simp [List.infix_cons_iff]
  | rsync index =>
    constructor
    · intro hdots
      exact absurd (isDigit_toString (hdots.subset List.mem_cons_self)) (by decide)
    · intro h
      exact absurd h.1 nofun

theorem hidden_fileName_iff (l : JobLog) :
    Hidden l.fileName ↔ l.date.toList.head? = some '.' := by
  rw [Hidden, JobLog.fileName, String.toList_append, l.toList_base]
  cases l.date.toList with
  | nil => simp
  | cons c cs => rfl

theorem HoldsLogs.folder_accepted {st : State L} {logs : List JobLog} (h : HoldsLogs st logs)
    (l : JobLog) : validIdentifier (l.folder L.system.backupDetailFolder) = true := by
  rw [JobLog.folder]
  split
  · exact h.detailName
  · exact l.accepted

/-- A folder has the visible ones of its logs, by their base names. -/
theorem HoldsLogs.mem_bases_iff {st : State L} {logs : List JobLog} (h : HoldsLogs st logs)
    {folder : String} (hfolder : validIdentifier folder = true) (file : String) :
    file ∈ (L.system.entryInfoList st.host (logsRoot st ++ "/" ++ folder) .logFiles).map
        (fun fi => Api.completeBaseName fi.fileName) ↔
      ∃ l ∈ logs, l.folder L.system.backupDetailFolder = folder ∧ ¬ Hidden l.fileName ∧
        l.base = file := by
  have hfiles := h.files folder hfolder
  constructor
  · intro hmem
    obtain ⟨fi, hfi, rfl⟩ := List.mem_map.mp hmem
    obtain ⟨hvisible, l, hl, hin, hname⟩ :=
      (hfiles fi.fileName).mp (List.mem_map.mpr ⟨fi, hfi, rfl⟩)
    refine ⟨l, hl, hin, by rwa [hname], ?_⟩
    rw [← hname, JobLog.fileName, completeBaseName_log]
  · intro hlog
    obtain ⟨l, hl, hin, hvisible, rfl⟩ := hlog
    obtain ⟨fi, hfi, hname⟩ :=
      List.mem_map.mp ((hfiles l.fileName).mpr ⟨hvisible, l, hl, hin, rfl⟩)
    refine List.mem_map.mpr ⟨fi, hfi, ?_⟩
    rw [hname, JobLog.fileName, completeBaseName_log]

/-- The run list has the visible files of the detail folder. -/
theorem mem_loadedRuns_iff {st : State L} {logs : List JobLog} (h : HoldsLogs st logs)
    {q : Request} {t : Moment} {s : Session} (hlive : LiveSession st t.now q s) (file : String) :
    file ∈ (loadedRuns (Api.runLogs q t st).2).map WebApp.RunEntry.file ↔
      ∃ l ∈ logs, l.folder L.system.backupDetailFolder = L.system.backupDetailFolder ∧
        ¬ Hidden l.fileName ∧ l.base = file := by
  rw [loadedRuns_runLogs hlive, List.map_map, h.detailDir]
  exact h.mem_bases_iff h.detailName file

/-- To a live session, every visible file of a folder that is not the detail folder is one
entry. -/
theorem listedRsync_rsyncLogs {st : State L} {q : Request} {t : Moment} {s : Session}
    (hlive : LiveSession st t.now q s) : listedRsync (Api.rsyncLogs q t st).2 =
      ((L.system.entryInfoList st.host (logsRoot st) .dirs).filter fun d =>
          d.fileName ≠ L.system.backupDetailFolder).flatMap fun d =>
        (L.system.entryInfoList st.host (logsRoot st ++ "/" ++ d.fileName) .logFiles).map
          fun fi => (d.fileName, Api.completeBaseName fi.fileName) := by
  rw [Api.rsyncLogs, Api.withAuth_of_live hlive, Api.reads]
  simp only [listedRsync, jsonResp, Json.toArray_arr, List.map_flatMap, List.map_map]
  refine List.flatMap_congr ?_
  intro d _
  refine List.map_congr_left ?_
  intro fi _
  simp [Json.Fields.get, List.lookup_cons]

/-- The rsync list has the visible files of every visible folder but the detail folder. -/
theorem mem_listedRsync_iff {st : State L} {logs : List JobLog} (h : HoldsLogs st logs)
    {q : Request} {t : Moment} {s : Session} (hlive : LiveSession st t.now q s)
    (job file : String) : (job, file) ∈ listedRsync (Api.rsyncLogs q t st).2 ↔
      job ≠ L.system.backupDetailFolder ∧ ¬ Hidden job ∧
        ∃ l ∈ logs, l.folder L.system.backupDetailFolder = job ∧ ¬ Hidden l.fileName ∧
          l.base = file := by
  rw [listedRsync_rsyncLogs hlive, List.mem_flatMap]
  constructor
  · intro hmem
    obtain ⟨d, hd, hmem⟩ := hmem
    obtain ⟨hd, hdetail⟩ := List.mem_filter.mp hd
    obtain ⟨fi, hfi, heq⟩ := List.mem_map.mp hmem
    obtain ⟨rfl, rfl⟩ := Prod.mk.inj heq
    obtain ⟨hvisible, l, -, hfolder⟩ := (h.folders d.fileName).mp (List.mem_map.mpr ⟨d, hd, rfl⟩)
    have haccepted : validIdentifier d.fileName = true := by
      rw [← hfolder]
      exact h.folder_accepted l
    exact ⟨of_decide_eq_true hdetail, hvisible,
      (h.mem_bases_iff haccepted _).mp (List.mem_map.mpr ⟨fi, hfi, rfl⟩)⟩
  · intro hlog
    obtain ⟨hdetail, hvisible, l, hl, rfl, hfile⟩ := hlog
    obtain ⟨d, hd, hname⟩ := List.mem_map.mp ((h.folders _).mpr ⟨hvisible, l, hl, rfl⟩)
    obtain ⟨fi, hfi, hbase⟩ :=
      List.mem_map.mp ((h.mem_bases_iff (h.folder_accepted l) file).mpr ⟨l, hl, rfl, hfile⟩)
    refine ⟨d, List.mem_filter.mpr ⟨hd, ?_⟩, ?_⟩
    · rw [hname]
      exact decide_eq_true hdetail
    · rw [hname]
      exact List.mem_map.mpr ⟨fi, hfi, by rw [hbase]⟩

/-! ### What is opened -/

/-- The answer has the content as its text, all of it. -/
def Shows (content : Bytes) (r : Reply) : Prop :=
  ∃ rest, r = .now (jsonResp (.obj (("text", .str (readText content)) :: rest)))

theorem plainFileName_iff {file : String} : Api.plainFileName file = true ↔
    '/' ∉ file.toList ∧ ¬ ['.', '.'] <:+: file.toList := by
  have hdots : (file.toList.tails.any fun t => ['.', '.'].isPrefixOf t) = true ↔
      ['.', '.'] <:+: file.toList := by
    simp [List.infix_iff_prefix_suffix, and_comm]
  rw [Api.plainFileName, Bool.and_eq_true, Bool.not_eq_true', Bool.not_eq_true',
    ← Bool.not_eq_true, ← Bool.not_eq_true, hdots, List.contains_iff_mem]

/-- A text without the separator does not go across it. -/
theorem infix_append_cons {p : List Char} {c : Char} (h : c ∉ p) (a b : List Char) :
    p <:+: a ++ c :: b ↔ p <:+: a ∨ p <:+: b := by
  constructor
  · intro hpart
    rcases List.infix_append_iff.mp hpart with ha | hb | ⟨p₁, p₂, rfl, hp₁, hp₂⟩
    · exact .inl ha
    · rcases List.infix_cons_iff.mp hb with hprefix | hb
      · cases p with
        | nil => exact .inl (List.nil_infix)
        | cons d p => exact absurd (List.cons_prefix_cons.mp hprefix).1 (by rintro rfl; simp at h)
      · exact .inr hb
    · cases p₂ with
      | nil => exact .inl (by simpa using hp₁.isInfix)
      | cons d p => exact absurd (List.cons_prefix_cons.mp hp₂).1 (by rintro rfl; simp at h)
  · rintro (ha | hb)
    · exact List.infix_append_of_infix_left ha
    · exact List.infix_append_of_infix_right (List.infix_cons hb)

/-- A base name is accepted unless there are dots in the job name of a run log. -/
theorem plainFileName_base_iff (l : JobLog) : Api.plainFileName l.base = true ↔
    ¬ (l.kind = .run ∧ ['.', '.'] <:+: l.job.toList) := by
  have hdate := plainFileName_iff.mp l.plain
  rw [plainFileName_iff, l.toList_base, infix_append_cons (by decide), l.dots_stem_iff]
  constructor
  · intro h hjob
    exact h.2 (.inr hjob)
  · intro h
    refine ⟨?_, ?_⟩
    · intro hmem
      rcases List.mem_append.mp hmem with hmem | hmem
      · exact hdate.1 hmem
      · rcases List.mem_cons.mp hmem with heq | hmem
        · exact absurd heq (by decide)
        · exact l.slash_not_mem_stem hmem
    · rintro (hdots | hjob)
      · exact hdate.2 hdots
      · exact h hjob

/-- A request for a log, of a live session, with `full=1` or without. -/
structure AsksForLog (st : State L) (full : Bool) (q : Request) (t : Moment) : Prop where
  live : ∃ s, LiveSession st t.now q s
  noOffset : parseInt64 (queryItemValue q "offset") = none
  view : decide (queryItemValue q "full" = "1") = full

theorem not_shows_errResp {content : Bytes} {msg : String} {status : StatusCode}
    (h : status ≠ .ok) : ¬ Shows content (.now (errResp msg status)) := by
  intro hshows
  obtain ⟨rest, heq⟩ := hshows
  injection heq with heq
  exact h (congrArg Response.status heq)

/-- The answer with the view of a log shows the log, if it fits under the cap. -/
theorem shows_view_iff (content : Bytes) (full : Bool) (rest : List (String × Json)) :
    Shows content (.now (jsonResp (.obj
        (("text", .str (Api.readLogForView content full).text) :: rest)))) ↔
      content.length ≤ viewCap full := by
  rw [← text_readLogForView_iff]
  constructor
  · rintro ⟨rest', heq⟩
    injection heq with heq
    injection congrArg Response.body heq with hfields
    injection (List.cons.inj hfields).1 with _ htext
    injection htext
  · intro htext
    rw [htext]
    exact ⟨rest, rfl⟩

/-- GET /api/logs/runs/<file> shows the file, if the name is accepted and the file fits. -/
theorem shows_runLog_iff {st : State L} {full : Bool} {q : Request} {t : Moment}
    (hasks : AsksForLog st full q t) {file : String} {content : Bytes}
    (hread : L.system.readFile st.host (L.getLogsDetailDir st.conf ++ "/" ++ file ++ ".log") =
      some content) : Shows content (Api.runLog file q t st).2 ↔
        Api.plainFileName file = true ∧ content.length ≤ viewCap full := by
  obtain ⟨⟨s, hlive⟩, hoffset, rfl⟩ := hasks
  have hread' : L.system.readFile (st.validated t.now q).host
      (L.getLogsDetailDir (st.validated t.now q).conf ++ "/" ++ file ++ ".log") =
        some content := hread
  rw [Api.runLog, Api.withAuth_of_live hlive, Api.reads]
  cases hname : Api.plainFileName file with
  | false =>
    simp only [Bool.not_false, if_true]
    exact iff_of_false (not_shows_errResp (by decide)) fun h => Bool.false_ne_true h.1
  | true =>
    simp only [hread', hoffset, Bool.not_true, Bool.false_eq_true, if_false, true_and]
    exact shows_view_iff content _ _

/-- GET /api/logs/rsync/<job>/<file> shows the file, if it fits: job and name are accepted. -/
theorem shows_rsyncLog_iff {st : State L} {full : Bool} {q : Request} {t : Moment}
    (hasks : AsksForLog st full q t) {job file : String} {content : Bytes}
    (hjob : validIdentifier job = true) (hdetail : job ≠ L.system.backupDetailFolder)
    (hname : Api.plainFileName file = true)
    (hread : L.system.readFile st.host (logsRoot st ++ "/" ++ job ++ "/" ++ file ++ ".log") =
      some content) :
    Shows content (Api.rsyncLog job file q t st).2 ↔ content.length ≤ viewCap full := by
  obtain ⟨⟨s, hlive⟩, -, rfl⟩ := hasks
  have hread' : L.system.readFile (st.validated t.now q).host
      (((st.validated t.now q).getValue "paths/logs").toString ++ "/" ++ job ++ "/" ++ file ++
        ".log") = some content := hread
  rw [Api.rsyncLog, Api.withAuth_of_live hlive, Api.reads]
  simp only [hjob, hdetail, hname, hread', Bool.not_true, Bool.false_eq_true, if_false,
    decide_false, Bool.or_self]
  exact shows_view_iff content _ _

/-! ### Listing and opening -/

/-- Every log is listed, the rsync logs under their jobs, and what is listed opens with the
content of its file. -/
structure LogsOpen (st : State L) (full : Bool) (logs : List JobLog) : Prop where
  runsListed : ∀ q t s, LiveSession st t.now q s → ∀ l ∈ logs, l.kind = .run →
    l.base ∈ (loadedRuns (Api.runLogs q t st).2).map WebApp.RunEntry.file
  rsyncListed : ∀ q t s, LiveSession st t.now q s → ∀ l ∈ logs, l.kind ≠ .run →
    (l.job, l.base) ∈ listedRsync (Api.rsyncLogs q t st).2
  runsOpen : ∀ q t s q' t', LiveSession st t.now q s → AsksForLog st full q' t' →
    ∀ file ∈ (loadedRuns (Api.runLogs q t st).2).map WebApp.RunEntry.file, ∃ content,
      L.system.readFile st.host (logsRoot st ++ "/" ++ L.system.backupDetailFolder ++ "/" ++
          file ++ ".log") = some content ∧
        Shows content (Api.runLog file q' t' st).2
  rsyncOpen : ∀ q t s q' t', LiveSession st t.now q s → AsksForLog st full q' t' →
    ∀ e ∈ listedRsync (Api.rsyncLogs q t st).2, ∃ content,
      L.system.readFile st.host (logsRoot st ++ "/" ++ e.1 ++ "/" ++ e.2 ++ ".log") =
          some content ∧
        Shows content (Api.rsyncLog e.1 e.2 q' t' st).2

/-- The log can be found, and its view is all of it. -/
def JobLog.Opens (detail : String) (full : Bool) (l : JobLog) : Prop :=
  l.Reachable detail ∧ l.content.length ≤ viewCap full

instance (detail : String) (full : Bool) (l : JobLog) : Decidable (l.Opens detail full) :=
  inferInstanceAs (Decidable (_ ∧ _))

/-- A log in a list with this base name has a visible date stamp. -/
theorem visible_of_base {l l' : JobLog} (hvisible : ¬ Hidden l'.fileName)
    (hbase : l'.base = l.base) : l.date.toList.head? ≠ some '.' := by
  intro hdot
  refine hvisible ?_
  rw [JobLog.fileName, hbase]
  exact (hidden_fileName_iff l).mpr hdot

/-- A run log that is listed and opened is reachable, and it fits. -/
theorem LogsOpen.opens_run {st : State L} {full : Bool} {logs : List JobLog}
    (h : LogsOpen st full logs) (hlogs : HoldsLogs st logs) {q : Request} {t : Moment}
    (hasks : AsksForLog st full q t) {l : JobLog} (hl : l ∈ logs) (hrun : l.kind = .run) :
    l.Opens L.system.backupDetailFolder full := by
  obtain ⟨s, hlive⟩ := hasks.live
  have hlisted := h.runsListed q t s hlive l hl hrun
  obtain ⟨content, hread, hshows⟩ := h.runsOpen q t s q t hlive hasks l.base hlisted
  have hown := hlogs.content l hl
  rw [JobLog.folder, hrun, hread] at hown
  obtain rfl := Option.some.inj hown
  rw [← hlogs.detailDir] at hread
  obtain ⟨hname, hfits⟩ := (shows_runLog_iff hasks hread).mp hshows
  obtain ⟨l', -, -, hvisible, hbase⟩ := (mem_loadedRuns_iff hlogs hlive l.base).mp hlisted
  refine ⟨⟨visible_of_base hvisible hbase, ?_⟩, hfits⟩
  rw [hrun]
  intro hdots
  exact (plainFileName_base_iff l).mp hname ⟨hrun, hdots⟩

/-- The names of reachable logs are accepted. -/
theorem plainFileName_of_reachable {detail : String} {l : JobLog} (h : l.Reachable detail) :
    Api.plainFileName l.base = true := by
  refine (plainFileName_base_iff l).mpr ?_
  intro hrun
  have hdots := h.2
  rw [hrun.1] at hdots
  exact hdots hrun.2

/-- An rsync log that is listed under its job and opened is reachable, and it fits. -/
theorem LogsOpen.opens_rsync {st : State L} {full : Bool} {logs : List JobLog}
    (h : LogsOpen st full logs) (hlogs : HoldsLogs st logs) {q : Request} {t : Moment}
    (hasks : AsksForLog st full q t) {l : JobLog} (hl : l ∈ logs) {index : Nat}
    (hrsync : l.kind = .rsync index) : l.Opens L.system.backupDetailFolder full := by
  obtain ⟨s, hlive⟩ := hasks.live
  have hlisted := h.rsyncListed q t s hlive l hl (by rw [hrsync]; nofun)
  obtain ⟨hdetail, hjob, l', -, -, hvisible, hbase⟩ :=
    (mem_listedRsync_iff hlogs hlive l.job l.base).mp hlisted
  have hreach : l.Reachable L.system.backupDetailFolder := by
    refine ⟨visible_of_base hvisible hbase, ?_⟩
    rw [hrsync]
    exact ⟨hdetail, hjob⟩
  obtain ⟨content, hread, hshows⟩ := h.rsyncOpen q t s q t hlive hasks _ hlisted
  have hown := hlogs.content l hl
  rw [JobLog.folder, hrsync, hread] at hown
  obtain rfl := Option.some.inj hown
  exact ⟨hreach, (shows_rsyncLog_iff hasks l.accepted hdetail
    (plainFileName_of_reachable hreach) hread).mp hshows⟩

/-- **Every listed log can be opened, and every log is listed,** exactly when the name of
every log lets it be reached, and no log is over the cap of the view that is asked for. -/
theorem logs_open_iff {st : State L} {full : Bool} {logs : List JobLog} (h : HoldsLogs st logs)
    {q : Request} {t : Moment} (hasks : AsksForLog st full q t) :
    LogsOpen st full logs ↔ ∀ l ∈ logs, l.Opens L.system.backupDetailFolder full := by
  constructor
  · intro hopen l hl
    cases hkind : l.kind with
    | run => exact hopen.opens_run h hasks hl hkind
    | rsync index => exact hopen.opens_rsync h hasks hl hkind
  · intro hopens
    have hvisible : ∀ l ∈ logs, ¬ Hidden l.fileName := fun l hl hhidden =>
      (hopens l hl).1.1 ((hidden_fileName_iff l).mp hhidden)
    constructor
    · intro q t s hlive l hl hrun
      refine (mem_loadedRuns_iff h hlive l.base).mpr ⟨l, hl, ?_, hvisible l hl, rfl⟩
      rw [JobLog.folder, hrun]
    · intro q t s hlive l hl hrsync
      cases hkind : l.kind with
      | run => exact absurd hkind hrsync
      | rsync index =>
        have hjob := (hopens l hl).1.2
        rw [hkind] at hjob
        refine (mem_listedRsync_iff h hlive l.job l.base).mpr
          ⟨hjob.1, hjob.2, l, hl, ?_, hvisible l hl, rfl⟩
        rw [JobLog.folder, hkind]
    · intro q t s q' t' hlive hasks' file hlisted
      obtain ⟨l, hl, hfolder, -, rfl⟩ := (mem_loadedRuns_iff h hlive file).mp hlisted
      obtain ⟨hreach, hfits⟩ := hopens l hl
      have hread := h.content l hl
      rw [hfolder] at hread
      refine ⟨l.content, hread, ?_⟩
      rw [← h.detailDir] at hread
      exact (shows_runLog_iff hasks' hread).mpr ⟨plainFileName_of_reachable hreach, hfits⟩
    · intro q t s q' t' hlive hasks' e hlisted
      obtain ⟨hdetail, -, l, hl, hfolder, -, hbase⟩ :=
        (mem_listedRsync_iff h hlive e.1 e.2).mp hlisted
      obtain ⟨hreach, hfits⟩ := hopens l hl
      have hread := h.content l hl
      rw [hfolder, hbase] at hread
      have hjob := h.folder_accepted l
      have hname := plainFileName_of_reachable hreach
      rw [hfolder] at hjob
      rw [hbase] at hname
      exact ⟨l.content, hread, (shows_rsyncLog_iff hasks' hjob hdetail hname hread).mpr hfits⟩

/-! ### A machine with logs -/

/-- Names that a listing shows. -/
def visible (names : List String) : List FileInfo :=
  (names.filter fun name => name.toList.head? ≠ some '.').map fun name => ⟨name, false, 0, 0⟩

theorem mem_visible_iff {names : List String} {name : String} :
    name ∈ (visible names).map FileInfo.fileName ↔ ¬ Hidden name ∧ name ∈ names := by
  rw [visible, List.map_map]
  simp [Hidden, and_comm]

/-- The logs are below `/logs`, and there are no other files. -/
def logsHost (logs : List JobLog) : HostSystem :=
  { Reference.system with
    entryInfoList := fun _ path filter =>
      match filter with
      | .dirs => if path = "/logs" then visible (logs.map fun l => l.folder "detail").eraseDups else []
      | .dirsAndFiles => []
      | .logFiles => visible ((logs.filter fun l =>
          "/logs" ++ "/" ++ l.folder "detail" = path).map JobLog.fileName)
    readFile := fun _ path => (logs.find? fun l =>
      "/logs" ++ "/" ++ l.folder "detail" ++ "/" ++ l.base ++ ".log" = path).map JobLog.content }

/-- The daemon on this machine. -/
def logsState (logs : List JobLog) :
    State (Reference.libraryOn (logsHost logs) fun _ => "/logs/detail") :=
  Reference.stateOn (logsHost logs) (fun _ => "/logs/detail")
    ((∅ : StringMap QVariant).insert "paths/logs" (.str "/logs")) ()

theorem logsRoot_logsState (logs : List JobLog) : logsRoot (logsState logs) = "/logs" := rfl

theorem holdsLogs_logsState {logs : List JobLog} (hcontent : ∀ l ∈ logs,
    (logsHost logs).readFile () ("/logs" ++ "/" ++ l.folder "detail" ++ "/" ++ l.base ++ ".log") =
      some l.content) : HoldsLogs (logsState logs) logs where
  detailDir := by
    have hpath : "/logs/detail" = "/logs" ++ "/" ++ "detail" := by decide
    rw [logsRoot_logsState]
    exact hpath
  detailName := by
    have haccepted : validIdentifier "detail" = true := by decide
    exact haccepted
  folders name := by
    rw [logsRoot_logsState]
    refine mem_visible_iff.trans (and_congr_right fun _ => ?_)
    rw [List.mem_eraseDups, List.mem_map]
    rfl
  files folder _ name := by
    rw [logsRoot_logsState]
    refine mem_visible_iff.trans (and_congr_right fun _ => ?_)
    simp only [List.mem_map, List.mem_filter, decide_eq_true_eq, String.append_right_inj, and_assoc]
    rfl
  content l hl := by
    rw [logsRoot_logsState]
    exact hcontent l hl

theorem asksForLog_logsState (logs : List JobLog) :
    AsksForLog (logsState logs) false (Reference.request .null) (Reference.moment "") where
  live := ⟨_, Reference.liveSession rfl rfl⟩
  noOffset := by decide
  view := by decide

/-- A run log of a job. -/
def runLogOf (job : String) (haccepted : validIdentifier job = true) : JobLog where
  kind := .run
  date := "20240101-020000"
  job := job
  content := toUtf8 "started"
  plain := by decide
  accepted := haccepted

theorem validIdentifier_photos : validIdentifier "photos" = true := by decide

def photosLogs : List JobLog :=
  [runLogOf "photos" validIdentifier_photos,
    { runLogOf "photos" validIdentifier_photos with
      kind := .rsync 1
      content := toUtf8 "sent 1 file" }]

/-- The logs of an ordinary job are listed and open. -/
theorem logs_open_photos : LogsOpen (logsState photosLogs) false photosLogs := by
  refine (logs_open_iff (holdsLogs_logsState ?_) (asksForLog_logsState photosLogs)).mpr ?_
  · decide +kernel
  · decide +kernel

/-- **The run log of the job `a..b`** is listed and not opened. -/
theorem dots_not_opened : ¬ ∀ (L : Library) (st : State L) (full : Bool) (logs : List JobLog)
    (q : Request) (t : Moment), HoldsLogs st logs → AsksForLog st full q t →
      LogsOpen st full logs := by
  intro hall
  have hlogs : HoldsLogs (logsState [runLogOf "a..b" (by decide)]) [runLogOf "a..b" (by decide)] :=
    holdsLogs_logsState (by decide +kernel)
  have hopen := hall _ _ _ _ _ _ hlogs (asksForLog_logsState _)
  have hopens := hopen.opens_run hlogs (asksForLog_logsState _) List.mem_cons_self rfl
  exact absurd hopens.1 (by decide +kernel)

end TiBackup
