import TiBackup.Model.Daemon
import TiBackup.Session.Expiry

/-!
# TiBackup.Model.WsHub

`webserver/wshub.cpp`: the live channel. Browsers connect to `/ws` with the session
cookie, and from then on get every job status change and every new line of the daemon
log.

**Upgrades.** Since Qt 6.8 a verifier looks at the handshake (`verifies` below); before
that every handshake succeeds, and `acceptPending` looks at the cookie when it takes the
socket over. Either way the session is validated once.

**Log lines.** `emitLogTail` runs whenever a watcher of the log file or of its folder
calls back, and sends what is in the file past the position it remembers, split at line
breaks. When callbacks happen is up to the operating system, so a run of the channel has
them anywhere.

The channel shares the session table with the HTTP handlers, whose calls are events of
it too. A web socket is known by a number and keeps the Cookie header of its handshake.
-/

namespace TiBackup

open Lib Lib.Machine

/-! ### Byte strings -/

/-- White space of a byte string. -/
def isSpaceByte (b : UInt8) : Bool := b = 32 || (9 ≤ b && b ≤ 13)

/-- `QByteArray::trimmed`. -/
def trimmedBytes (bs : Bytes) : Bytes := (bs.dropWhile isSpaceByte).rdropWhile isSpaceByte

/-- One item of a Cookie header, if it is the session cookie. -/
def wsCookieItem (p : Bytes) : Option String :=
  let t := trimmedBytes p
  let eq := t.idxOf 61
  if 0 < eq ∧ eq < t.length ∧ t.take eq = toUtf8 "tibackup_sid" then
    some (fromUtf8 (t.drop (eq + 1)))
  else none

/-- `wsCookieTokenFromHeader`. -/
def wsCookieTokenFromHeader (header : Bytes) : String :=
  ((header.splitOn 59).findSome? wsCookieItem).getD ""

/-! ### The hub -/

/-- A web socket, with the Cookie header of its handshake. -/
structure WebSocket where
  id : Nat
  cookie : Bytes
  deriving Repr, DecidableEq

/-- The messages a browser gets. -/
inductive Message
  | hello (version : String)
  | jobStatus (name status : String)
  | logTail (line : String)
  deriving Repr, DecidableEq

/-- `statusString`. -/
def statusString : BackupStatus → String
  | .running => "running"
  | .failed => "failed"
  | .finished => "finished"
  | .standby => "standby"

structure WsHub where
  clients : List WebSocket := []
  logPos : Nat := 0

namespace WsHub

/-- The lines of a chunk that are not blank. -/
def logLines (chunk : Bytes) : List Bytes :=
  (chunk.splitOn 10).filter fun line => !(trimmedBytes line).isEmpty

/-- `emitLogTail`, on the log as it is; `none` when it cannot be opened. -/
def emitLogTail (hub : WsHub) (log : Option Bytes) : WsHub × List Message :=
  match log with
  | none => (hub, [])
  | some f =>
    -- The file was truncated or rotated.
    let pos := if f.length < hub.logPos then 0 else hub.logPos
    let chunk := f.drop pos
    -- The position is where the reading stopped, even in the middle of a line.
    let hub := { hub with logPos := pos + chunk.length }
    if chunk.isEmpty then (hub, [])
    else (hub, (logLines chunk).map fun line => .logTail (fromUtf8 line))

/-- The tail reads on from its position. -/
theorem emitLogTail_of_le {hub : WsHub} {f : Bytes} (h : hub.logPos ≤ f.length) :
    hub.emitLogTail (some f) = ({ hub with logPos := f.length },
      (logLines (f.drop hub.logPos)).map fun line => .logTail (fromUtf8 line)) := by
  have hpos : hub.logPos + (f.length - hub.logPos) = f.length := by omega
  simp only [emitLogTail, if_neg (Nat.not_lt.mpr h), List.length_drop, hpos]
  split
  · next hempty =>
    rw [List.isEmpty_iff.mp hempty]
    rfl
  · rfl

/-- The tail of a log that has become shorter begins again. -/
theorem emitLogTail_of_lt {hub : WsHub} {f : Bytes} (h : f.length < hub.logPos) :
    hub.emitLogTail (some f) = ({ hub with logPos := f.length },
      (logLines f).map fun line => .logTail (fromUtf8 line)) := by
  simp only [emitLogTail, if_pos h, List.drop_zero, Nat.zero_add]
  split
  · next hempty =>
    rw [List.isEmpty_iff.mp hempty]
    rfl
  · rfl

@[simp] theorem clients_emitLogTail (hub : WsHub) (log : Option Bytes) :
    (hub.emitLogTail log).1.clients = hub.clients := by
  cases log with
  | none => rfl
  | some f =>
    simp only [emitLogTail]
    generalize (if f.length < hub.logPos then 0 else hub.logPos) = pos
    split <;> rfl

/-- `broadcast`. -/
def broadcast (hub : WsHub) (msg : Message) : List (WebSocket × Message) :=
  hub.clients.map fun ws => (ws, msg)

/-- `acceptPending`, on the sockets that are pending: the sessions and clients after it,
and the sockets it greeted. -/
def acceptPending (verifies : Bool) (now : Int) :
    List WebSocket → SessionStore → List WebSocket → SessionStore × List WebSocket × List WebSocket
  | [], sessions, clients => (sessions, clients, [])
  | ws :: pending, sessions, clients =>
    if verifies then
      -- The verifier looked at the session before the handshake.
      let r := acceptPending verifies now pending sessions (clients ++ [ws])
      (r.1, r.2.1, ws :: r.2.2)
    else
      -- Every handshake got here; those without a session are closed.
      let v := sessions.validate now (wsCookieTokenFromHeader ws.cookie)
      if !v.2 then acceptPending verifies now pending v.1 clients
      else
        let r := acceptPending verifies now pending v.1 (clients ++ [ws])
        (r.1, r.2.1, ws :: r.2.2)

end WsHub

/-! ### The channel -/

/-- The hub and everything it looks at: the session table, the sockets that wait to be
taken over, and the daemon log. -/
structure LiveChannel where
  sessions : SessionStore
  hub : WsHub
  pending : List WebSocket
  nextId : Nat
  log : Option Bytes

/-- `WsHub::WsHub`, when the daemon starts with this log: the tail begins at its end. -/
def LiveChannel.start (sessions : SessionStore) (log : Option Bytes) : LiveChannel where
  sessions := sessions
  hub := { logPos := (log.map List.length).getD 0 }
  pending := []
  nextId := 0
  log := log

/-- What happens to the channel. -/
inductive LiveEvent
  /-- An HTTP handler uses the session table. -/
  | session (c : SessionStore.Call)
  /-- A handshake with this Cookie header. -/
  | upgrade (path : String) (cookie : Bytes) (now : Int)
  | newWebSocketConnection (now : Int)
  | disconnected (id : Nat)
  | statusChanged (name : String) (s : BackupStatus) (now : Int)
  | logAppended (chunk : Bytes)
  | logTruncated
  /-- The file or the folder watcher calls back. -/
  | logChanged (now : Int)

/-- What one event sends: the messages that are broadcast, and everything that goes to
a socket. -/
structure LiveOutput where
  broadcast : List Message := []
  sent : List (WebSocket × Message) := []

namespace LiveChannel

/-- Broadcast some messages to the clients. -/
def send (hub : WsHub) (msgs : List Message) : LiveOutput where
  broadcast := msgs
  sent := msgs.flatMap hub.broadcast

/-- One event; `verifies` tells whether upgrades are verified, `version` is what the
greeting says. -/
def step (verifies : Bool) (version : String) (c : LiveChannel) : LiveEvent → LiveChannel × LiveOutput
  | .session call => ({ c with sessions := SessionStore.machine.next c.sessions call }, {})
  | .upgrade path cookie now =>
    let ws : WebSocket := ⟨c.nextId, cookie⟩
    if verifies then
      if path ≠ "/ws" then (c, {})
      else
        let v := c.sessions.validate now (wsCookieTokenFromHeader cookie)
        if v.2 then
          ({ c with sessions := v.1, pending := c.pending ++ [ws], nextId := c.nextId + 1 }, {})
        else ({ c with sessions := v.1 }, {})
    else ({ c with pending := c.pending ++ [ws], nextId := c.nextId + 1 }, {})
  | .newWebSocketConnection now =>
    let r := WsHub.acceptPending verifies now c.pending c.sessions c.hub.clients
    ({ c with sessions := r.1, hub := { c.hub with clients := r.2.1 }, pending := [] },
      { sent := r.2.2.map fun ws => (ws, .hello version) })
  | .disconnected id =>
    ({ c with hub := { c.hub with clients := c.hub.clients.filter fun ws => ws.id ≠ id } }, {})
  | .statusChanged name s _ => (c, send c.hub [.jobStatus name (statusString s)])
  | .logAppended chunk => ({ c with log := some (c.log.getD [] ++ chunk) }, {})
  | .logTruncated => ({ c with log := c.log.map fun _ => [] }, {})
  | .logChanged _ =>
    let r := c.hub.emitLogTail c.log
    ({ c with hub := r.1 }, send r.1 r.2)

/-- The channel as a machine. -/
def machine (verifies : Bool) (version : String) : Machine LiveChannel LiveEvent LiveOutput where
  step := step verifies version

end LiveChannel

end TiBackup
