import TiBackup.Auth.Checks
import TiBackup.Lib.Machine
import TiBackup.Model.Router

/-!
# TiBackup.Model.Logging

`logging.cpp` and what reads the daemon log. `logMessageOutput` opens the log at the first
message it persists and keeps it open; `WsHub` is given the path of the log when the web
server is constructed; GET /api/logs/main looks the path up whenever it is asked.

A run of the daemon has messages and, once there is a web server, requests and callbacks
of the log watcher, in any order. Changing `paths/logs` is one of the requests.
-/

namespace TiBackup

open Lib

variable {L : Library}

/-! ### The message handler -/

/-- `QtMsgType`. -/
inductive QtMsgType
  | debug
  | info
  | warning
  | critical
  | fatal
  deriving Repr, DecidableEq

def levelTag : QtMsgType → String
  | .debug => "DEBUG"
  | .info => "INFO"
  | .warning => "WARN"
  | .critical => "ERROR"
  | .fatal => "CRIT"

/-- A message, and the time at which it is written, as `MMM d hh:mm:ss`. -/
structure LogMessage where
  type : QtMsgType
  str : String
  time : String
  deriving Repr, DecidableEq

/-- The line that is written for a message. -/
def LogMessage.line (msg : LogMessage) : String :=
  msg.time ++ " [" ++ levelTag msg.type ++ "] " ++ msg.str ++ "\n"

/-- `<paths/logs>/tibackup.log`, with the configuration as it is. -/
def State.logPath (st : State L) : String :=
  (st.getValue "paths/logs").toString ++ "/tibackup.log"

/-- `logMessageOutput`: the file that is open after the message, and the file and the line
that were written. -/
def logMessageOutput (st : State L) (logFile : Option String) (msg : LogMessage) :
    Option String × Option (String × String) :=
  if msg.type = .debug ∧ st.debugLogging = false then (logFile, none)
  else
    let file := logFile.getD st.logPath
    (some file, some (file, msg.line))

/-! ### Reading the log -/

namespace Api

/-- The last lines of a log, as GET /api/logs/main answers them. -/
def mainLogText (lines : String) (log : Option Bytes) : String :=
  let asked := ((parseInt32 lines).getD 0).toNat
  let lines := if asked = 0 then 200 else asked
  let content := match log with
    | some f => if f.length > kMaxLogTailBytes then f.drop (f.length - kMaxLogTailBytes) else f
    | none => []
  let all := content.splitOn 10
  "\n".intercalate ((all.drop (all.length - lines)).map fromUtf8)

/-- The pieces of a log that are answered. -/
def mainLogLines (lines : String) (log : Bytes) : List Bytes :=
  let asked := ((parseInt32 lines).getD 0).toNat
  let lines := if asked = 0 then 200 else asked
  let content :=
    if log.length > kMaxLogTailBytes then log.drop (log.length - kMaxLogTailBytes) else log
  let all := content.splitOn 10
  all.drop (all.length - lines)

theorem mainLogText_eq (lines : String) (log : Bytes) :
    mainLogText lines (some log) = "\n".intercalate ((mainLogLines lines log).map fromUtf8) := rfl

/-- A live session is answered with what is at the path by now. -/
theorem mainLog_eq {st : State L} {q : Request} {t : Moment} {s : Session}
    (hlive : LiveSession st t.now q s) : (mainLog q t st).2 =
      .now (jsonResp (.obj [("text", .str (mainLogText (queryItemValue q "lines")
        (L.system.readFile st.host st.logPath)))])) := by
  rw [mainLog, withAuth_of_live hlive, Api.reads]
  rfl

end Api

/-! ### The daemon -/

/-- The web server as far as the log is concerned: `m_logPath` of its `WsHub`, which there
is only when the server listens. -/
structure LogHub where
  logPath : Option String
  deriving Repr, DecidableEq

/-- The daemon and its log. -/
structure LoggingDaemon (L : Library) where
  state : State L
  /-- `g_logFile`. -/
  logFile : Option String := none
  webServer : Option LogHub := none
  aborted : Bool := false

inductive LoggingEvent
  /-- Some thread emits a message. -/
  | message (msg : LogMessage)
  /-- `WebServer::WebServer`, and what it says in the end. -/
  | webServer (listening : Bool) (str time : String)
  /-- A request is handled. -/
  | call (c : Call)
  /-- A watcher of the log calls back. -/
  | logChanged

namespace LoggingDaemon

/-- Before `main` has done anything. -/
def start (st : State L) : LoggingDaemon L where
  state := st

def message (d : LoggingDaemon L) (msg : LogMessage) :
    LoggingDaemon L × Option (String × String) :=
  let r := logMessageOutput d.state d.logFile msg
  -- A fatal message is the last thing that happens.
  ({ d with logFile := r.1, aborted := msg.type = .fatal }, r.2)

/-- Where the next message that is persisted goes. -/
def writes (d : LoggingDaemon L) : String := d.logFile.getD d.state.logPath

/-- What GET /api/logs/main reads. -/
def reads (d : LoggingDaemon L) : String := d.state.logPath

/-- What the live tail is taken of, when there is one. -/
def tails (d : LoggingDaemon L) : Option String := d.webServer.bind LogHub.logPath

/-- One event, and the line it writes. -/
def handle (d : LoggingDaemon L) : LoggingEvent → LoggingDaemon L × Option (String × String)
  | .message msg => d.message msg
  | .webServer listening str time =>
    match d.webServer with
    | some _ => (d, none)
    | none =>
      let hub : LogHub := { logPath := if listening then some d.state.logPath else none }
      let type := if listening then QtMsgType.info else .warning
      { d with webServer := some hub }.message { type, str, time }
  | .call c =>
    -- Without a server that listens there are no requests.
    if d.tails.isSome then
      ({ d with state := (Api.handle c.route c.req c.moment d.state).1 }, none)
    else (d, none)
  | .logChanged => (d, none)

/-- The daemon as a machine; nothing happens after a fatal message. -/
def machine (L : Library) : Machine (LoggingDaemon L) LoggingEvent (Option (String × String)) where
  step d e := if d.aborted then (d, none) else d.handle e

end LoggingDaemon

end TiBackup
