import TiBackup.Auth.Checks
import TiBackup.Model.WebApp

/-!
# TiBackup.Logs.Names

**Which job a run log belongs to.** A run log is called `<date>__<job>.log`, and the list
of runs takes the name apart again at `__`. A job name may contain `__` itself, and then
the entry bears what stands before it: the run of `a__b` is listed as one of `a`
(`runEntry_name_iff`).

The log view groups the entries by these names. It shows every run under its own job, and
marks it live for no other one, exactly when no job of the list has such a name or the
name of a member that every JavaScript object has (`runView_right_iff`).
-/

namespace TiBackup

open Lib

variable {L : Library}

/-! ### Taking a file name apart -/

/-- A run log: its date stamp, which the separator cannot be mistaken in, and the job. -/
structure RunFile where
  date : String
  job : String
  noSeparator : ¬ ['_', '_'] <:+: date.toList
  noUnderscore : date.toList.getLast? ≠ some '_'
  accepted : validIdentifier job = true

/-- `<date>__<job>`. -/
def RunFile.base (f : RunFile) : String := f.date ++ "__" ++ f.job

/-- `<date>__<job>.log`. -/
def RunFile.fileName (f : RunFile) : String := f.base ++ ".log"

/-- The job name has the separator in it. -/
def RunFile.Ambiguous (f : RunFile) : Prop := ['_', '_'] <:+: f.job.toList

/-- The entry that the list of runs has for a file. -/
def runEntry (fileName : String) : WebApp.RunEntry :=
  let base := Api.completeBaseName fileName
  let parts := (Api.splitDoubleUnderscore [] base.toList).map String.ofList
  { file := base, date := parts.getD 0 "", name := parts.getD 1 "" }

theorem completeBaseName_log (base : String) : Api.completeBaseName (base ++ ".log") = base := by
  have hreverse : (base ++ ".log").toList.reverse = 'g' :: 'o' :: 'l' :: '.' :: base.toList.reverse := by
    rw [String.toList_append, List.reverse_append]
    rfl
  rw [Api.completeBaseName, hreverse]
  simp

/-- A date stamp is cut off at the first separator behind it. -/
theorem splitDoubleUnderscore_append {d : List Char} (hnone : ¬ ['_', '_'] <:+: d)
    (hlast : d.getLast? ≠ some '_') (acc n : List Char) :
    Api.splitDoubleUnderscore acc (d ++ '_' :: '_' :: n) =
      (acc.reverse ++ d) :: Api.splitDoubleUnderscore [] n := by
  induction d generalizing acc with
  | nil => rw [List.nil_append, Api.splitDoubleUnderscore, List.append_nil]
  | cons c d ih =>
    have hskip : Api.splitDoubleUnderscore acc (c :: (d ++ '_' :: '_' :: n)) =
        Api.splitDoubleUnderscore (c :: acc) (d ++ '_' :: '_' :: n) := by
      refine Api.splitDoubleUnderscore.eq_2 _ _ _ ?_
      rintro rest rfl hrest
      cases d with
      | nil => exact hlast rfl
      | cons e es =>
        obtain ⟨rfl, -⟩ := List.cons.inj hrest
        exact hnone ⟨[], es, rfl⟩
    have hnone' : ¬ ['_', '_'] <:+: d := fun h => hnone (List.infix_cons h)
    have hlast' : d.getLast? ≠ some '_' := by
      cases d with
      | nil => simp
      | cons e es => rwa [List.getLast?_cons_cons] at hlast
    rw [List.cons_append, hskip, ih hnone' hlast', List.reverse_cons, List.append_assoc,
      List.singleton_append]

/-- Without a separator there is one piece. -/
theorem splitDoubleUnderscore_of_none {n : List Char} (hnone : ¬ ['_', '_'] <:+: n)
    (acc : List Char) : Api.splitDoubleUnderscore acc n = [acc.reverse ++ n] := by
  induction n generalizing acc with
  | nil => rw [Api.splitDoubleUnderscore, List.append_nil]
  | cons c n ih =>
    have hskip : Api.splitDoubleUnderscore acc (c :: n) =
        Api.splitDoubleUnderscore (c :: acc) n := by
      refine Api.splitDoubleUnderscore.eq_2 _ _ _ ?_
      rintro rest rfl rfl
      exact hnone ⟨[], rest, rfl⟩
    rw [hskip, ih fun h => hnone (List.infix_cons h), List.reverse_cons, List.append_assoc,
      List.singleton_append]

/-- With one, the first piece ends before it. -/
theorem splitDoubleUnderscore_head {n : List Char} (hsome : ['_', '_'] <:+: n) (acc : List Char) :
    ∃ first rest, Api.splitDoubleUnderscore acc n = first :: rest ∧
      first.length < acc.length + n.length := by
  induction n generalizing acc with
  | nil => exact absurd (List.infix_nil.mp hsome) (by simp)
  | cons c n ih =>
    by_cases hhere : ['_', '_'] <+: c :: n
    · obtain ⟨rest, hrest⟩ := hhere
      obtain ⟨rfl, rfl⟩ := List.cons.inj hrest
      refine ⟨acc.reverse, _, Api.splitDoubleUnderscore.eq_1 _ _, ?_⟩
      rw [List.length_reverse, List.length_cons]
      omega
    · have hskip : Api.splitDoubleUnderscore acc (c :: n) =
          Api.splitDoubleUnderscore (c :: acc) n := by
        refine Api.splitDoubleUnderscore.eq_2 _ _ _ ?_
        rintro rest rfl rfl
        exact hhere ⟨rest, rfl⟩
      obtain ⟨first, rest, hsplit, hlength⟩ :=
        ih ((List.infix_cons_iff.mp hsome).resolve_left hhere) (c :: acc)
      rw [List.length_cons] at hlength ⊢
      exact ⟨first, rest, hskip.trans hsplit, by omega⟩

/-- The entry of a file has its date, and the name of its job exactly when this has no
separator in it. -/
theorem runEntry_name_iff (f : RunFile) :
    runEntry f.fileName = { file := f.base, date := f.date, name := f.job } ↔ ¬ f.Ambiguous := by
  have hbase : f.base.toList = f.date.toList ++ '_' :: '_' :: f.job.toList := by
    simp [RunFile.base, String.toList_append]
  have hdate := splitDoubleUnderscore_append f.noSeparator f.noUnderscore [] f.job.toList
  rw [List.reverse_nil, List.nil_append] at hdate
  rw [runEntry, RunFile.fileName, completeBaseName_log, hbase, hdate, List.map_cons,
    String.ofList_toList, WebApp.RunEntry.mk.injEq]
  simp only [List.getD_cons_zero, List.getD_cons_succ, true_and]
  constructor
  · intro hname hsome
    obtain ⟨first, rest, hsplit, hlength⟩ := splitDoubleUnderscore_head hsome []
    rw [hsplit, List.map_cons, List.getD_cons_zero] at hname
    rw [← hname, String.toList_ofList, List.length_nil] at hlength
    omega
  · intro hnone
    rw [splitDoubleUnderscore_of_none hnone, List.map_singleton, List.getD_cons_zero,
      List.reverse_nil, List.nil_append, String.ofList_toList]

/-! ### The list the page gets -/

/-- The runs of an answer. -/
def loadedRuns : Reply → List WebApp.RunEntry
  | .now r => r.body.toArray.map .ofJson
  | .later _ => []

theorem ofJson_runEntry (file date name : String) :
    WebApp.RunEntry.ofJson (.obj [("file", .str file), ("date", .str date), ("name", .str name)]) =
      { file, date, name } := by
  simp [WebApp.RunEntry.ofJson, Json.Fields.get, List.lookup_cons]

/-- To a live session, every file that is listed is one entry. -/
theorem loadedRuns_runLogs {st : State L} {q : Request} {t : Moment} {s : Session}
    (hlive : LiveSession st t.now q s) :
    loadedRuns (Api.runLogs q t st).2 =
      (L.system.entryInfoList st.host (L.getLogsDetailDir st.conf) .logFiles).map
        fun fi => runEntry fi.fileName := by
  rw [Api.runLogs, Api.withAuth_of_live hlive, Api.reads]
  simp only [loadedRuns, jsonResp, Json.toArray_arr, List.map_map]
  refine List.map_congr_left ?_
  intro fi _
  exact ofJson_runEntry ..

/-! ### Groups -/

namespace WebApp

/-- What the map of groups holds after some runs: under each name the runs of this name,
and nothing under any other one. -/
def Grouped (runs : List RunEntry) (m : StringMap (List RunEntry)) : Prop :=
  ∀ name, m[name]? = if name ∈ runs.map RunEntry.name then
    some (runs.filter fun r => r.name = name) else none

/-- The whole list, run by run: it throws at the first name every object has. -/
theorem foldlM_pushRun {runs : List RunEntry} {m : StringMap (List RunEntry)}
    {before : List RunEntry} (h : Grouped before m) :
    (∃ r ∈ runs, r.name ∈ objectPrototype) ∧ runs.foldlM pushRun m = none ∨
      (∀ r ∈ runs, r.name ∉ objectPrototype) ∧
        ∃ m', runs.foldlM pushRun m = some m' ∧ Grouped (before ++ runs) m' :=
  foldlM_collect h

/-- The groups of a list of runs: one for each name, with the runs of this name. -/
structure GroupsOf (runs : List RunEntry) (groups : List RunGroup) : Prop where
  members : ∀ g ∈ groups, ∀ r, r ∈ g.runs ↔ r ∈ runs ∧ r.name = g.name
  complete : ∀ r ∈ runs, ∃ g ∈ groups, g.name = r.name

/-- The view lists groups, unless a run has the name of a member every object has. -/
theorem runGroups_cases (runs : List RunEntry) :
    (∃ r ∈ runs, r.name ∈ objectPrototype) ∧ runGroups runs = none ∨
      (∀ r ∈ runs, r.name ∉ objectPrototype) ∧
        ∃ groups, runGroups runs = some groups ∧ GroupsOf runs groups := by
  have hempty : Grouped [] (∅ : StringMap (List RunEntry)) := by
    intro name
    rw [List.map_nil, if_neg List.not_mem_nil]
    exact Std.ExtTreeMap.getElem?_empty
  rcases @foldlM_pushRun runs _ _ hempty with ⟨hthrows, hnone⟩ | ⟨hall, m, hm, hgrouped⟩
  · exact .inl ⟨hthrows, by rw [runGroups, hnone, Option.map_none]⟩
  · refine .inr ⟨hall, _, by rw [runGroups, hm, Option.map_some], ?_⟩
    rw [List.nil_append] at hgrouped
    constructor
    · intro g hg r
      obtain ⟨⟨name, rs⟩, hp, rfl⟩ := List.mem_map.mp hg
      have hget := Std.ExtTreeMap.mem_toList_iff_getElem?_eq_some.mp (List.mem_mergeSort.mp hp)
      rw [hgrouped name] at hget
      split at hget
      · obtain rfl := Option.some.inj hget
        rw [List.mem_mergeSort, List.mem_filter, decide_eq_true_eq]
      · cases hget
    · intro r hr
      have hget := hgrouped r.name
      rw [if_pos (List.mem_map_of_mem hr)] at hget
      exact ⟨_, List.mem_map_of_mem (List.mem_mergeSort.mpr
        (Std.ExtTreeMap.mem_toList_iff_getElem?_eq_some.mpr hget)), rfl⟩

end WebApp

/-! ### The log view -/

/-- The list of runs is right: every entry says which date and job its file is of, every
run is shown in one group, the one of its job, and a row that is marked live is a run of a
job that is running. -/
structure RunViewRight (files : List RunFile) (runs : List WebApp.RunEntry) : Prop where
  entries : runs = files.map fun f => { file := f.base, date := f.date, name := f.job }
  grouped : ∃ groups, WebApp.runGroups runs = some groups ∧
    ∀ f ∈ files, (∃ g ∈ groups, runEntry f.fileName ∈ g.runs) ∧
      ∀ g ∈ groups, runEntry f.fileName ∈ g.runs → g.name = f.job ∧
        ∀ jobs idx, WebApp.markedLive jobs g idx = true → WebApp.isRunning jobs f.job = true

/-- **Runs are shown under their own job**, exactly when no job of the list has the
separator in its name, or a name that every object has a member of. -/
theorem runView_right_iff {st : State L} {q : Request} {t : Moment} {s : Session}
    (hlive : LiveSession st t.now q s) {files : List RunFile}
    (hfiles : (L.system.entryInfoList st.host (L.getLogsDetailDir st.conf) .logFiles).map
      FileInfo.fileName = files.map RunFile.fileName) :
    RunViewRight files (loadedRuns (Api.runLogs q t st).2) ↔
      ∀ f ∈ files, ¬ f.Ambiguous ∧ f.job ∉ WebApp.objectPrototype := by
  have hruns : loadedRuns (Api.runLogs q t st).2 = files.map fun f => runEntry f.fileName := by
    rw [loadedRuns_runLogs hlive]
    have hmap := congrArg (List.map runEntry) hfiles
    rwa [List.map_map, List.map_map] at hmap
  rw [hruns]
  constructor
  · rintro ⟨hentries, groups, hgroups, -⟩ f hf
    have hname := (List.map_inj_left.mp hentries) f hf
    refine ⟨(runEntry_name_iff f).mp hname, ?_⟩
    rcases WebApp.runGroups_cases (files.map fun f => runEntry f.fileName) with
      ⟨-, hnone⟩ | ⟨hall, -⟩
    · rw [hnone] at hgroups
      cases hgroups
    · have hmember := hall _ (List.mem_map_of_mem hf)
      rwa [hname] at hmember
  · intro hnames
    have hentry : ∀ f ∈ files,
        runEntry f.fileName = { file := f.base, date := f.date, name := f.job } :=
      fun f hf => (runEntry_name_iff f).mpr (hnames f hf).1
    refine ⟨List.map_congr_left hentry, ?_⟩
    rcases WebApp.runGroups_cases (files.map fun f => runEntry f.fileName) with
      ⟨⟨r, hr, hmember⟩, -⟩ | ⟨-, groups, hgroups, hof⟩
    · obtain ⟨f, hf, rfl⟩ := List.mem_map.mp hr
      rw [hentry f hf] at hmember
      exact absurd hmember (hnames f hf).2
    · refine ⟨groups, hgroups, ?_⟩
      intro f hf
      have hmem := List.mem_map_of_mem (f := fun f => runEntry f.fileName) hf
      constructor
      · obtain ⟨g, hg, hname⟩ := hof.complete _ hmem
        exact ⟨g, hg, (hof.members g hg _).mpr ⟨hmem, hname.symm⟩⟩
      · intro g hg hin
        have hname : g.name = f.job := by
          rw [← ((hof.members g hg _).mp hin).2, hentry f hf]
        refine ⟨hname, ?_⟩
        intro jobs idx hmarked
        rw [WebApp.markedLive, Bool.and_eq_true, hname] at hmarked
        exact hmarked.1

/-- A machine on which these files are listed. -/
def listing (files : List String) : HostSystem :=
  { Reference.system with entryInfoList := fun _ _ _ => files.map fun name => ⟨name, false, 0, 0⟩ }

def photosRun : RunFile := ⟨"20240101-020000", "photos", by decide, by decide, by decide⟩

def ambiguousRun : RunFile := ⟨"20240101-020000", "a__b", by decide, by decide, by decide⟩

/-- The run of an ordinary job is shown under its name. -/
theorem runView_right_photos : RunViewRight [photosRun]
    (loadedRuns (Api.runLogs (Reference.request .null) (Reference.moment "")
      (Reference.stateOn (listing [photosRun.fileName]) (fun _ => "") ∅ ())).2) := by
  refine (runView_right_iff (Reference.liveSession rfl rfl) rfl).mpr ?_
  intro f hf
  obtain rfl := List.mem_singleton.mp hf
  exact ⟨by rw [RunFile.Ambiguous]; decide, by decide⟩

/-- **A run of `a__b` is listed as one of `a`**, and marked live while `a` is running. -/
theorem runView_ambiguous : (runEntry ambiguousRun.fileName).name = "a" ∧
    ¬ ∀ (L : Library) (st : State L) (q : Request) (t : Moment) (s : Session),
      LiveSession st t.now q s → ∀ files : List RunFile,
        (L.system.entryInfoList st.host (L.getLogsDetailDir st.conf) .logFiles).map
          FileInfo.fileName = files.map RunFile.fileName →
            RunViewRight files (loadedRuns (Api.runLogs q t st).2) := by
  have hname : (runEntry ambiguousRun.fileName).name = "a" := by decide +kernel
  refine ⟨hname, ?_⟩
  intro hall
  have hlive : LiveSession (Reference.stateOn (listing [ambiguousRun.fileName]) (fun _ => "") ∅ ())
      1 (Reference.request .null) { csrf := "csrf", lastSeen := 0 } :=
    Reference.liveSession rfl rfl
  have hentries := (hall _ _ _ (Reference.moment "") _ hlive [ambiguousRun] rfl).entries
  rw [loadedRuns_runLogs hlive] at hentries
  have hentry : runEntry ambiguousRun.fileName = _ := (List.cons.inj hentries).1
  rw [hentry] at hname
  exact absurd hname (by decide)

end TiBackup
