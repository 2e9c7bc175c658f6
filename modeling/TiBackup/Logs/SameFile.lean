import TiBackup.Model.Logging
import TiBackup.Stores.Preferences

/-!
# TiBackup.Logs.SameFile

**One daemon log.** The message handler writes a file, GET /api/logs/main reads one and the
live tail follows one. All three are `<paths/logs>/tibackup.log`, but the configuration is
looked at when the first message is written, when the web server is constructed, and at
every request. So they are the same file as long as nobody changes the folder
(`same_log_file_iff`).
-/

namespace TiBackup

open Lib

variable {L : Library}

/-! ### Changing the folder -/

/-- The folder that a body of PUT /api/prefs sets. -/
def newLogsDir (req : Request) : Option String :=
  let b := parseBody req
  let p := (b.get "paths").toObject
  if b.contains "paths" ∧ p.contains "logs" then some (p.get "logs").toString else none

/-- Where the log is after a change of the folder, if there is one. -/
def movedTo (dir : Option String) (path : String) : String :=
  match dir with
  | some dir => dir ++ "/tibackup.log"
  | none => path

theorem logPath_congr {st st' : State L} (h : st'.conf = st.conf) : st'.logPath = st.logPath := by
  rw [State.logPath, State.logPath, State.getValue, State.getValue, h]

theorem logPath_setValue {key : String} (h : "paths/logs" ≠ key) (st : State L) (v : QVariant) :
    (st.setValue key v).logPath = st.logPath := by
  rw [State.logPath, State.getValue_setValue_of_ne st h, State.logPath]

namespace Api

/-- A request that is accepted moves the log if it says so. -/
theorem logPath_putPrefs {st : State L} {req : Request} {m : Moment}
    (h : CsrfVerified st m.now req) :
    (putPrefs req m st).1.logPath = movedTo (newLogsDir req) st.logPath := by
  have hlogs : (putPrefs req m st).1.getValue "paths/logs" =
      if ((parseBody req).get "paths").toObject.contains "logs" = true then
        .str (((parseBody req).get "paths").toObject.get "logs").toString
      else st.getValue "paths/logs" :=
    getValue_putPrefs_pref h (p := ⟨some "paths", "logs", "paths/logs", .text⟩) (by decide)
  rw [State.logPath, hlogs, newLogsDir]
  by_cases hin : ((parseBody req).get "paths").toObject.contains "logs" = true
  · have hpaths : (parseBody req).contains "paths" = true := by
      by_contra habsent
      rw [get_of_not_contains habsent] at hin
      cases hin
    rw [if_pos hin, if_pos ⟨hpaths, hin⟩]
    rfl
  · rw [if_neg hin, if_neg fun hset => hin hset.2]
    rfl

/-- and moves nothing if it is rejected. -/
theorem logPath_putPrefs_of_rejected {st : State L} {req : Request} {m : Moment}
    (h : ¬ CsrfVerified st m.now req) : (putPrefs req m st).1.logPath = st.logPath :=
  logPath_congr (conf_putPrefs_of_rejected h)

/-- No other route moves the log. -/
theorem logPath_handle {r : Route} (hr : r ≠ .putPrefs) (req : Request) (m : Moment)
    (st : State L) : (handle r req m st).1.logPath = st.logPath := by
  cases hwrites : r.writes .conf with
  | false => exact logPath_congr (handle_frame hwrites req m st)
  | true =>
    have hset : ∀ pw, (setPassword pw m.rawSalt st).logPath = st.logPath := by
      intro pw
      simp (disch := decide) only [setPassword, logPath_setValue]
    cases r with
    | setup =>
      rcases setup_cases req m st with ⟨hst, -⟩ | ⟨-, -, hconf⟩
      · exact congrArg State.logPath hst
      · exact (logPath_congr hconf).trans (hset _)
    | login =>
      rcases login_changes st req m with hst | ⟨-, hst⟩
      · exact logPath_congr (hst.part .conf)
      · exact (logPath_congr (hst.part .conf)).trans (hset _)
    | putPrefs => exact absurd rfl hr
    | _ => cases hwrites

end Api

namespace LoggingDaemon

/-! ### One step -/

/-- What is written, what is read and what the live tail follows is one file. -/
structure SameFile (d : LoggingDaemon L) : Prop where
  written : d.writes = d.reads
  tailed : ∀ path, d.tails = some path → path = d.reads

/-- The web server writes a message when it is constructed. -/
def Opened (d : LoggingDaemon L) : Prop := d.webServer ≠ none → d.logFile ≠ none

/-- A request that is handled and accepted does not set another folder. -/
def KeepsLogDir (d : LoggingDaemon L) : LoggingEvent → Prop
  | .call c => d.aborted = false → d.tails ≠ none → c.route = .putPrefs →
    CsrfVerified d.state c.moment.now c.req → ∀ dir, newLogsDir c.req = some dir →
      dir = (d.state.getValue "paths/logs").toString
  | _ => True

theorem movedTo_logPath_iff (st : State L) (dir : Option String) :
    movedTo dir st.logPath = st.logPath ↔
      ∀ dir', dir = some dir' → dir' = (st.getValue "paths/logs").toString := by
  cases dir with
  | none => exact iff_of_true rfl nofun
  | some dir =>
    rw [movedTo, State.logPath, String.append_left_inj]
    simp

/-- A message leaves the paths as they are. -/
theorem paths_message (d : LoggingDaemon L) (msg : LogMessage) :
    (d.message msg).1.writes = d.writes ∧ (d.message msg).1.reads = d.reads ∧
      (d.message msg).1.tails = d.tails := by
  refine ⟨?_, rfl, rfl⟩
  rw [message, writes, writes, logMessageOutput]
  split
  · rfl
  · rfl

theorem logFile_message {d : LoggingDaemon L} {msg : LogMessage} (h : d.logFile ≠ none) :
    (d.message msg).1.logFile ≠ none := by
  rw [message, logMessageOutput]
  split
  · exact h
  · nofun

/-- Every other type than debug is written. -/
theorem logFile_message_of_type {d : LoggingDaemon L} {msg : LogMessage} (h : msg.type ≠ .debug) :
    (d.message msg).1.logFile ≠ none := by
  rw [message, logMessageOutput, if_neg fun hdebug => h hdebug.1]
  nofun

/-- What a step does: nothing, a message, the web server with its first message, or a request
to a web server that listens. -/
theorem next_cases (d : LoggingDaemon L) (e : LoggingEvent) :
    ((machine L).next d e = d ∧ ∀ c, e = .call c → d.aborted = true ∨ d.tails = none) ∨
    (∃ msg, e = .message msg ∧ (machine L).next d e = (d.message msg).1) ∨
    (∃ listening str time hub, e = .webServer listening str time ∧
      (∀ path, hub.logPath = some path → path = d.reads) ∧ ∃ msg : LogMessage, msg.type ≠ .debug ∧
        (machine L).next d e = ({ d with webServer := some hub }.message msg).1) ∨
    ∃ c path, e = .call c ∧ d.aborted = false ∧ d.tails = some path ∧ (machine L).next d e =
      { d with state := (Api.handle c.route c.req c.moment d.state).1 } := by
  have hstep : (machine L).next d e = (if d.aborted then (d, none) else d.handle e).1 := rfl
  rw [hstep]
  by_cases haborted : d.aborted = true
  · rw [if_pos haborted]
    exact .inl ⟨rfl, fun _ _ => .inl haborted⟩
  · rw [if_neg haborted]
    cases e with
    | message msg => exact .inr (.inl ⟨msg, rfl, rfl⟩)
    | logChanged => exact .inl ⟨rfl, fun _ hcall => by cases hcall⟩
    | webServer listening str time =>
      rw [handle]
      cases hweb : d.webServer with
      | some hub => exact .inl ⟨rfl, fun _ hcall => by cases hcall⟩
      | none =>
        refine .inr (.inr (.inl ⟨listening, str, time, _, rfl, ?_, _, ?_, rfl⟩))
        · cases listening with
          | true => exact fun path hpath => (Option.some.inj hpath).symm
          | false => exact nofun
        · cases listening with
          | true => nofun
          | false => nofun
    | call c =>
      rw [handle]
      cases htails : d.tails with
      | none => exact .inl ⟨rfl, fun _ _ => .inr rfl⟩
      | some path =>
        exact .inr (.inr (.inr ⟨c, path, rfl, Bool.eq_false_of_not_eq_true haborted, rfl, rfl⟩))

theorem opened_next {d : LoggingDaemon L} (h : Opened d) (e : LoggingEvent) :
    Opened ((machine L).next d e) := by
  rcases next_cases d e with ⟨hsame, -⟩ | ⟨msg, -, hnext⟩ | ⟨_, _, _, hub, -, -, msg, htype, hnext⟩ |
    ⟨c, path, -, -, -, hnext⟩
  · rwa [hsame]
  · rw [hnext]
    exact fun hweb => logFile_message (h hweb)
  · rw [hnext]
    exact fun _ => logFile_message_of_type htype
  · rw [hnext]
    exact h

/-- A request moves the log if it is one that does. -/
theorem reads_call_iff (d : LoggingDaemon L) (c : Call) :
    (Api.handle c.route c.req c.moment d.state).1.logPath = d.reads ↔
      (c.route = .putPrefs → CsrfVerified d.state c.moment.now c.req →
        ∀ dir, newLogsDir c.req = some dir → dir = (d.state.getValue "paths/logs").toString) := by
  by_cases hroute : c.route = .putPrefs
  · by_cases hverified : CsrfVerified d.state c.moment.now c.req
    · have hmoved : (Api.handle c.route c.req c.moment d.state).1.logPath =
          movedTo (newLogsDir c.req) d.state.logPath := by
        rw [hroute]
        exact Api.logPath_putPrefs hverified
      rw [hmoved]
      refine (movedTo_logPath_iff d.state _).trans ?_
      exact ⟨fun h _ _ => h, fun h => h hroute hverified⟩
    · refine iff_of_true ?_ fun _ h => absurd h hverified
      rw [hroute]
      exact Api.logPath_putPrefs_of_rejected hverified
  · exact iff_of_true (Api.logPath_handle hroute c.req c.moment d.state) fun h => absurd h hroute

/-- A request leaves the file that is written and the one that is tailed as they are. -/
theorem sameFile_call_iff {d : LoggingDaemon L} (hopened : Opened d) (h : SameFile d) {c : Call}
    (hrunning : d.aborted = false) {path : String} (htails : d.tails = some path) :
    SameFile { d with state := (Api.handle c.route c.req c.moment d.state).1 } ↔
      KeepsLogDir d (.call c) := by
  have hweb : d.webServer ≠ none := by
    intro hnone
    rw [tails, hnone] at htails
    cases htails
  obtain ⟨file, hfile⟩ := Option.ne_none_iff_exists'.mp (hopened hweb)
  have hkeeps : KeepsLogDir d (.call c) ↔
      (Api.handle c.route c.req c.moment d.state).1.logPath = d.reads := by
    rw [reads_call_iff]
    exact ⟨fun hkeeps => hkeeps hrunning (by rw [htails]; nofun), fun hkeeps _ _ => hkeeps⟩
  have hwritten := h.written
  rw [writes, hfile] at hwritten
  have hwrites : writes { d with
      state := (Api.handle c.route c.req c.moment d.state).1 } = d.reads := by
    rw [writes, hfile]
    exact hwritten
  rw [hkeeps]
  constructor
  · intro hsame
    exact hsame.written.symm.trans hwrites
  · intro hreads
    refine ⟨hwrites.trans hreads.symm, ?_⟩
    intro path' hpath'
    exact (h.tailed path' hpath').trans hreads.symm

/-- **One step** keeps the log one file exactly when it does not set another folder. -/
theorem sameFile_next_iff {d : LoggingDaemon L} (hopened : Opened d) (h : SameFile d)
    (e : LoggingEvent) : SameFile ((machine L).next d e) ↔ KeepsLogDir d e := by
  rcases next_cases d e with ⟨hsame, hcall⟩ | ⟨msg, rfl, hnext⟩ |
    ⟨_, _, _, hub, rfl, hpath, msg, -, hnext⟩ | ⟨c, path, rfl, hrunning, htails, hnext⟩
  · rw [hsame]
    refine iff_of_true h ?_
    cases e with
    | call c =>
      intro hrunning htails
      rcases hcall c rfl with haborted | hnone
      · rw [haborted] at hrunning
        cases hrunning
      · exact absurd hnone htails
    | _ => trivial
  · obtain ⟨hwrites, hreads, htails⟩ := paths_message d msg
    rw [hnext]
    refine iff_of_true ⟨?_, ?_⟩ trivial
    · rw [hwrites, hreads, h.written]
    · rw [htails, hreads]
      exact h.tailed
  · obtain ⟨hwrites, hreads, htails⟩ := paths_message { d with webServer := some hub } msg
    rw [hnext]
    refine iff_of_true ⟨?_, ?_⟩ trivial
    · rw [hwrites, hreads]
      exact h.written
    · rw [htails, hreads]
      exact hpath
  · rw [hnext]
    exact sameFile_call_iff hopened h hrunning htails

/-! ### Runs -/

/-- **The daemon log is one file** in every state of a run exactly when no request of the run
that is accepted sets another folder than the one that is set. -/
theorem same_log_file_iff (st : State L) (es : List LoggingEvent) :
    (machine L).Along (fun d e => SameFile ((machine L).next d e)) (start st) es ↔
      (machine L).Along KeepsLogDir (start st) es := by
  have hstart : Opened (start st) ∧ SameFile (start st) := ⟨fun h => absurd rfl h, rfl, nofun⟩
  have hkeeps : ∀ d e, Opened d ∧ SameFile d →
      ((Opened ((machine L).next d e) ∧ SameFile ((machine L).next d e)) ↔ KeepsLogDir d e) := by
    intro d e h
    rw [← sameFile_next_iff h.1 h.2]
    exact and_iff_right (opened_next h.1 e)
  refine Iff.trans ?_ (Machine.along_next_iff hkeeps hstart es)
  have hopened : ∀ d e, Opened d → Opened ((machine L).next d e) := fun d e h => opened_next h e
  refine Machine.along_congr_of_invariant hopened ?_ hstart.1 es
  intro d e h
  exact (and_iff_right (opened_next h e)).symm

/-- PUT /api/prefs with another folder for the logs. -/
def movesLogs : Call where
  route := .putPrefs
  req := Reference.request (.obj [("paths", .obj [("logs", .str "/srv/logs")])])
  moment := Reference.moment ""

/-- **After a change of the folder** the log that is shown is not the log that is written. -/
theorem moved_log_differs : ¬ ∀ (L : Library) (st : State L) (es : List LoggingEvent),
    SameFile ((machine L).run (start st) es) := by
  intro hall
  have hserver := hall _ Reference.initial [.webServer true "listening" "Jan 1 00:00:00"]
  have hmoved := hall _ Reference.initial
    [.webServer true "listening" "Jan 1 00:00:00", .call movesLogs]
  have hopened := opened_next (L := Reference.library) (d := start Reference.initial)
    (fun h => absurd rfl h) (.webServer true "listening" "Jan 1 00:00:00")
  have hkeeps := (sameFile_next_iff hopened hserver (.call movesLogs)).mp hmoved
  rw [KeepsLogDir] at hkeeps
  have hdir := hkeeps rfl nofun rfl (Reference.csrfVerified rfl _) "/srv/logs" rfl
  exact absurd hdir (by decide)

end LoggingDaemon

end TiBackup
