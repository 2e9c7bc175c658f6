import TiBackup.Lib.Replace
import TiBackup.Model.Logging
import TiBackup.Model.WsHub

/-!
# TiBackup.Model.LogPage

**The daemon log in the log view** of `var/www/js/app.js`. `loadLogs` asks for the end of
the log and puts it in the place of what is shown when the answer is there;
`onLiveMessage` adds each line that comes in on the live channel. The two ways know
nothing of each other.

The page, the log, the hub of the live channel and what is on its way between them make
up one state (`LogPage`), which any event may change at any time. Beside the text of an
answer a record is kept of what the server had before it when it read the log. It decides
nothing.
-/

namespace TiBackup

open Lib

/-! ### Lines of the view -/

/-- The levels in `LOG_LEVELS`. -/
inductive LogLevel
  | debug
  | info
  | warn
  | error
  | crit
  deriving Repr, DecidableEq

def levelMarks : List (String × LogLevel) :=
  [("[DEBUG]", .debug), ("[INFO]", .info), ("[WARN]", .warn), ("[ERROR]", .error),
    ("[CRIT]", .crit)]

/-- `logLevelOf`: the first mark in the line, if there is one. -/
def logLevelOf (line : String) : LogLevel :=
  (line.toList.tails.findSome? fun rest =>
    levelMarks.findSome? fun p => if p.1.toList.isPrefixOf rest then some p.2 else none).getD .info

structure LogLine where
  level : LogLevel
  text : String
  deriving Repr, DecidableEq

/-- White space of JavaScript's `trim`. -/
def isTrimmedChar (c : Char) : Bool :=
  (9 ≤ c.toNat && c.toNat ≤ 13) || (0x2000 ≤ c.toNat && c.toNat ≤ 0x200a) ||
    [0x20, 0xa0, 0x1680, 0x2028, 0x2029, 0x202f, 0x205f, 0x3000, 0xfeff].contains c.toNat

/-- The entries for some lines; a line of white space has none. -/
def logEntries (lines : List String) : List LogLine :=
  (lines.filter fun line => !line.toList.all isTrimmedChar).map fun line =>
    { level := logLevelOf line, text := line }

theorem logEntries_append (xs ys : List String) :
    logEntries (xs ++ ys) = logEntries xs ++ logEntries ys := by
  rw [logEntries, List.filter_append, List.map_append]
  rfl

/-- `text.split("\n")`. -/
def splitLines (text : String) : List String := (text.toList.splitOn '\n').map String.ofList

/-- The last 1000 entries. -/
@[irreducible] def lastEntries (entries : List LogLine) : List LogLine :=
  entries.drop (entries.length - 1000)

/-- `pushLog`. -/
def pushLog (logLines : List LogLine) (text : String) : List LogLine :=
  lastEntries (logLines ++ logEntries (splitLines text))

/-! ### What is shown -/

/-- `LOG_LEVELS`. -/
def LogLevel.rank : LogLevel → Nat
  | .debug => 0
  | .info => 1
  | .warn => 2
  | .error => 3
  | .crit => 4

/-- Is the entry shown when this level is selected? -/
def shows (logLevel : LogLevel) (l : LogLine) : Bool := logLevel.rank ≤ l.level.rank

/-- `visibleLog`. -/
def visibleLog (logLevel : LogLevel) (logLines : List LogLine) : String :=
  "\n".intercalate ((logLines.filter (shows logLevel)).map (·.text))

/-- `esc`: three passes, in this order. -/
def esc (s : List Char) : List Char :=
  let s := replaceAll "&".toList "&amp;".toList s
  let s := replaceAll "<".toList "&lt;".toList s
  replaceAll ">".toList "&gt;".toList s

/-- The start tag for a mark: `lv` is what stands in the brackets. -/
def levelTagOf (m : List Char) : List Char :=
  let lv := (m.drop 1).dropLast
  "<span class=\"lvl lvl-".toList ++ lv.map Char.toLower ++ "\">".toList

/-- The first mark of a line in a span of its own. -/
def colour (s : List Char) : List Char :=
  match findMark (levelMarks.map fun p => p.1.toList) s with
  | none => s
  | some (front, m, rest) => front ++ (levelTagOf m ++ m ++ "</span>".toList) ++ rest

/-- `visibleLogHtml`. -/
def visibleLogHtml (logLevel : LogLevel) (logLines : List LogLine) : String :=
  "\n".intercalate
    ((logLines.filter (shows logLevel)).map fun l => String.ofList (colour (esc l.text.toList)))

/-! ### The view and what it talks to -/

/-- An answer of GET /api/logs/main. -/
structure LogsAnswer where
  text : String
  /-- Record: the log that was read. -/
  log : Bytes
  /-- Record: up to where it had been broadcast. -/
  sent : Nat
  deriving Repr, DecidableEq

/-- The requests of one `loadLogs`, on their way or answered. -/
structure LogsRequest where
  id : Nat
  answer : Option LogsAnswer := none
  deriving Repr, DecidableEq

structure LogPage where
  logLines : List LogLine := []
  requests : List LogsRequest := []
  nextRequest : Nat := 0
  /-- Messages on their way, the oldest first. -/
  messages : List Message := []
  hub : WsHub
  log : Bytes
  /-- Record: the answer of the latest `loadLogs`, once it has been processed. -/
  shown : Option LogsAnswer := none

inductive LogPageEvent
  /-- A line is written to the log. -/
  | append (line : Bytes)
  /-- A watcher of the log calls back. -/
  | logChanged
  /-- The daemon reports the status of a job. -/
  | statusChanged (name : String) (s : BackupStatus)
  /-- The next message arrives. -/
  | message
  | loadLogs
  /-- The server reads the log for a request. -/
  | read (id : Nat)
  /-- The last answer for a `loadLogs` arrives. -/
  | answered (id : Nat)
  /-- A `loadLogs` fails. -/
  | fail (id : Nat)
  deriving Repr, DecidableEq

namespace LogPage

/-- The page is with a daemon that starts with this log. -/
def start (log : Bytes) : LogPage where
  hub := { logPos := log.length }
  log := log

/-- `onLiveMessage`; the other messages change nothing in the daemon log. -/
def onLiveMessage (s : LogPage) : Message → LogPage
  | .logTail line => { s with logLines := pushLog s.logLines line }
  | _ => s

/-- The answer to a request, if the server has read the log for it. -/
def answerOf (s : LogPage) (id : Nat) : Option LogsAnswer :=
  (s.requests.find? fun r => r.id = id).bind (·.answer)

/-- What the server answers, with the log as it is. -/
def mainLog (s : LogPage) : LogsAnswer where
  text := Api.mainLogText "200" (some s.log)
  log := s.log
  sent := s.hub.logPos

/-- `loadLogs`, after its `await`. -/
def loadLogsDone (s : LogPage) (id : Nat) (a : LogsAnswer) : LogPage :=
  { s with
    logLines := pushLog [] a.text
    requests := s.requests.filter (·.id ≠ id)
    shown := if id + 1 = s.nextRequest then some a else s.shown }

def step (s : LogPage) : LogPageEvent → LogPage
  | .append line => { s with log := s.log ++ (line ++ [10]) }
  | .logChanged =>
    let r := s.hub.emitLogTail (some s.log)
    { s with hub := r.1, messages := s.messages ++ r.2 }
  | .statusChanged name status =>
    { s with messages := s.messages ++ [.jobStatus name (statusString status)] }
  | .message =>
    match s.messages with
    | [] => s
    | msg :: rest => { s with messages := rest }.onLiveMessage msg
  | .loadLogs =>
    { s with
      requests := s.requests ++ [{ id := s.nextRequest }]
      nextRequest := s.nextRequest + 1
      shown := none }
  | .read id =>
    { s with
      requests := s.requests.map fun r =>
        if r.id = id ∧ r.answer = none then { r with answer := some s.mainLog } else r }
  | .answered id =>
    match s.answerOf id with
    | some a => s.loadLogsDone id a
    | none => s
  | .fail id => { s with requests := s.requests.filter (·.id ≠ id) }

def machine : Machine LogPage LogPageEvent Unit where
  step s e := (s.step e, ())

end LogPage

end TiBackup
