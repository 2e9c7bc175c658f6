import TiBackup.Lib.Machine
import TiBackup.Model.Shell

/-!
# TiBackup.Model.LivePage

How the page hears of news: `js/ws.js`, and `connectLive`, `startPoll`, `stopPoll` and their
callers of `js/app.js`. While the web socket is open the daemon pushes them; while it is not,
an interval made by `startPoll` loads the dashboard again and again.

Web sockets and intervals belong to the browser and go on when the page forgets them, so all
that were ever made are kept: the sockets by their position, the intervals that run by their
number. A socket fires `open` only while it is connecting, and nothing but `close` once it
is closing. `liveSocket.retry` is never set.

The page has one more interval, `runTimer`, by which `openRun` follows a run log. It is not
one of those here: it belongs to the log viewer (`RunViewer`), and neither `doLogout` nor the
listener for `unauthorized` clears it.

What brings the page into a view is left open: `init` and the functions that sign in and out
may go on at any time. What the messages say is not looked at.
-/

namespace TiBackup

open Lib Lib.Machine

/-- `readyState`. -/
inductive ReadyState
  | CONNECTING
  | OPEN
  | CLOSING
  | CLOSED
  deriving Repr, DecidableEq

/-- A web socket of the page. -/
structure PageSocket where
  readyState : ReadyState := .CONNECTING
  /-- Its `onclose` is set. -/
  onclose : Bool := true
  deriving Repr, DecidableEq

/-- `page`. -/
inductive Page
  | dashboard
  | pbs
  | ssh
  | settings
  | logs
  deriving Repr, DecidableEq

structure LivePage where
  view : View := .loading
  page : Page := .dashboard
  wsLive : Bool := false
  pollTimer : Option Nat := none
  /-- `liveSocket.sock`. -/
  sock : Option Nat := none
  sockets : List PageSocket := []
  /-- The intervals of `startPoll` that run, and the number of the next one. -/
  intervals : List Nat := []
  nextInterval : Nat := 0
  deriving Repr, DecidableEq

/-- What can happen. -/
inductive LivePageEvent
  /-- `enterApp`; the web socket can be made, or its constructor throws. -/
  | enterApp (made : Bool)
  /-- `init` shows the form for the first password, or for a login. -/
  | showForm (setupRequired : Bool)
  /-- `doLogout` goes on. -/
  | doLogout
  /-- A request was answered with status 401. -/
  | unauthorized
  | go (page : Page)
  /-- A web socket fires `open`, -/
  | opened (k : Nat)
  /-- `error`, -/
  | error (k : Nat)
  /-- or `close`. -/
  | closed (k : Nat)
  /-- The time of an interval of `startPoll` has come. -/
  | tick (t : Nat)
  deriving Repr, DecidableEq

/-- `ws.close()`. -/
def PageSocket.close (w : PageSocket) : PageSocket :=
  { w with readyState := if w.readyState = .CLOSED then .CLOSED else .CLOSING }

namespace LivePage

def stopPoll (s : LivePage) : LivePage :=
  match s.pollTimer with
  | some t => { s with intervals := s.intervals.filter (· ≠ t), pollTimer := none }
  | none => s

def startPoll (s : LivePage) : LivePage :=
  let s := s.stopPoll
  if s.view = .app then
    { s with
      pollTimer := some s.nextInterval
      intervals := s.intervals ++ [s.nextInterval]
      nextInterval := s.nextInterval + 1 }
  else s

/-- The second function that `connectLive` passes on. -/
def onOpen (s : LivePage) : LivePage := { s with wsLive := true }.stopPoll

/-- The third one. -/
def onClose (s : LivePage) : LivePage := { s with wsLive := false }.startPoll

/-- `liveSocket.close`. -/
def closeSocket (s : LivePage) : LivePage :=
  match s.sock with
  | some k =>
    { s with sockets := s.sockets.modify k fun w => { w with onclose := false }.close, sock := none }
  | none => s

/-- `liveSocket.connect`. -/
def connect (s : LivePage) (made : Bool) : LivePage :=
  let s := s.closeSocket
  if made then { s with sock := some s.sockets.length, sockets := s.sockets ++ [{}] } else s.onClose

def enterApp (s : LivePage) (made : Bool) : LivePage :=
  { ({ s with view := .app } : LivePage).connect made with page := .dashboard }

def doLogout (s : LivePage) : LivePage :=
  { s.stopPoll.closeSocket with wsLive := false, view := .login }

/-- The listener for `unauthorized`. -/
def unauthorized (s : LivePage) : LivePage :=
  { s.stopPoll.closeSocket with
    wsLive := false
    view := if s.view = .app then .login else s.view }

/-- The handlers of a web socket, on the events it can fire. -/
def opened (s : LivePage) (k : Nat) : LivePage :=
  match s.sockets[k]? with
  | some w =>
    if w.readyState = .CONNECTING then
      { s with sockets := s.sockets.set k { w with readyState := .OPEN } }.onOpen
    else s
  | none => s

def error (s : LivePage) (k : Nat) : LivePage := { s with sockets := s.sockets.modify k .close }

def closed (s : LivePage) (k : Nat) : LivePage :=
  match s.sockets[k]? with
  | some w =>
    if w.readyState = .CLOSED then s
    else
      let s := { s with sockets := s.sockets.set k { w with readyState := .CLOSED } }
      if w.onclose then { s with sock := none }.onClose else s
  | none => s

def step (s : LivePage) : LivePageEvent → LivePage
  | .enterApp made => s.enterApp made
  | .showForm setupRequired => { s with view := if setupRequired then .setup else .login }
  | .doLogout => s.doLogout
  | .unauthorized => s.unauthorized
  | .go page => { s with page }
  | .opened k => s.opened k
  | .error k => s.error k
  | .closed k => s.closed k
  | .tick _ => s

/-- An interval of `startPoll` that runs loads the dashboard if it is shown. -/
def loads (s : LivePage) : LivePageEvent → Bool
  | .tick t => s.intervals.contains t && s.page = .dashboard
  | _ => false

/-- The page as a machine. The output tells whether an interval loads the dashboard. -/
def machine : Machine LivePage LivePageEvent Bool where
  step s e := (s.step e, s.loads e)

end LivePage

end TiBackup
