import TiBackup.Model.Browser
import TiBackup.Model.Process

/-!
# TiBackup.Model.Shell

How the page of `var/www/js/app.js` signs in and out: `init`, `doSetup`, `doLogin`,
`doLogout`, the `unauthorized` listener, and `api.req` of `js/api.js`, which every other
function of the page goes through.

There are two secrets. The browser keeps the session cookie and sends it along; the page
keeps the CSRF token in `api.csrf` and puts it into the header of unsafe requests. Both
come with the same answer, but the browser takes the cookie over when the answer arrives
and the page goes on after its `await` later. In between, and while a request is on its
way, anything may happen: in the page, and in the daemon on behalf of others.

Alpine calls the `init` of the data object, and the `x-init` of `index.html` calls it once
more, so a page that is loaded asks for the status twice.

One page is looked at. What other functions do with their answers does not matter here,
save that four of them hold `busy` while they wait.
-/

namespace TiBackup

open Lib Lib.Machine

variable {L : Library}

/-- `view`. -/
inductive View
  | loading
  | setup
  | login
  | app
  deriving Repr, DecidableEq

/-- The function that waits for an answer. -/
inductive ShellOrigin
  | init
  | doSetup
  | doLogin
  | doLogout
  /-- `saveJob`, `savePbs`, `saveSsh`, `savePrefs`. -/
  | save
  | other
  /-- A page that is no longer there. -/
  | gone
  deriving Repr, DecidableEq

/-- A request in flight, as it was sent, what the daemon replied, and whether the browser
has the answer. -/
structure ShellRequest where
  id : Nat
  origin : ShellOrigin
  route : Route
  req : Request
  reply : Option Reply := none
  arrived : Bool := false

/-- The request as the daemon gets it. -/
def ShellRequest.call (r : ShellRequest) (m : Moment) : Call := ⟨r.route, r.req, m⟩

/-- The routes that the other functions of the page use. -/
def Route.ofPage : Route → Bool
  | .authStatus | .setup | .login | .logout => false
  | _ => true

/-- The page, the browser and the daemon. -/
structure Shell (L : Library) where
  daemon : Process L
  /-- The session cookie in the browser. -/
  jar : Option SessionCookie
  view : View := .loading
  /-- `api.csrf`. -/
  csrf : Option String := none
  busy : Bool := false
  requests : List ShellRequest := []
  nextRequest : Nat := 0

/-- What can happen. -/
inductive ShellEvent
  /-- The page is loaded, for the first time or again. -/
  | load (now : Int)
  | doSetup (setupPw setupPw2 : String) (now : Int)
  | doLogin (loginPw : String) (now : Int)
  | doLogout (now : Int)
  /-- Some other function of the page sends a request; `holds` if it is one that sets
  `busy`. -/
  | request (holds : Bool) (route : Route) (query : List (String × String)) (body : Option Json) (now : Int)
  /-- The main thread of the daemon serves a request of the page. -/
  | serve (id : Nat) (m : Moment)
  /-- A worker is done with what such a request left it. -/
  | workDone (id : Nat)
  /-- An answer arrives in the browser. -/
  | arrive (id : Nat) (now : Int)
  /-- The page goes on. -/
  | resume (id : Nat)
  /-- A request fails. -/
  | fail (id : Nat)
  /-- Something else happens in the daemon. -/
  | elsewhere (e : Process.Happening)

namespace Shell

/-- The Cookie header the browser sends. -/
def cookieHeader (s : Shell L) (now : Int) : String :=
  match s.jar with
  | some c => if now ≤ c.expires then "tibackup_sid=" ++ c.token else ""
  | none => ""

/-- `api.req`: unsafe requests carry the CSRF token if there is one. -/
def send (s : Shell L) (origin : ShellOrigin) (route : Route) (query : List (String × String))
    (body : Option Json) (now : Int) : Shell L :=
  { s with
    requests := s.requests ++
      [{ id := s.nextRequest, origin, route
         req := { cookie := s.cookieHeader now, query, body
                  csrfToken := match route.method with
                    | some .Get | none => ""
                    | _ => s.csrf.getD "" } }]
    nextRequest := s.nextRequest + 1 }

/-- A page that is left takes no more answers. -/
def abandon (s : Shell L) : Shell L :=
  { s with requests := s.requests.map fun r => { r with origin := .gone } }

/-- `init` up to its `await`. -/
def init (s : Shell L) (now : Int) : Shell L := s.send .init .authStatus [] none now

/-- A new page. -/
def load (s : Shell L) (now : Int) : Shell L :=
  (({ s.abandon with view := .loading, csrf := none, busy := false } : Shell L).init now).init now

def enterApp (s : Shell L) : Shell L := { s with view := .app }

/-- The listener for `unauthorized`, as far as it is not about the live channel. -/
def unauthorized (s : Shell L) : Shell L :=
  { s with csrf := none, view := if s.view = .app then .login else s.view }

/-- `init` goes on. -/
def initDone (s : Shell L) (answer : Option Response) : Shell L :=
  match answer with
  | some a =>
    if a.status = .ok then
      if (a.body.toObject.get "setupRequired").toBool then { s with view := .setup }
      else if (a.body.toObject.get "authenticated").toBool then
        { s with csrf := some (a.body.toObject.get "csrf").toString }.enterApp
      else { s with view := .login }
    else { s with view := .login }
  | none => { s with view := .login }

def doSetup (s : Shell L) (setupPw setupPw2 : String) (now : Int) : Shell L :=
  if utf16Length setupPw < 8 ∨ setupPw ≠ setupPw2 then s
  else { s with busy := true }.send .doSetup .setup [] (some (.obj [("password", .str setupPw)])) now

def doLogin (s : Shell L) (loginPw : String) (now : Int) : Shell L :=
  { s with busy := true }.send .doLogin .login [] (some (.obj [("password", .str loginPw)])) now

/-- `doSetup` and `doLogin` go on. -/
def signInDone (s : Shell L) (answer : Option Response) : Shell L :=
  match answer with
  | some a =>
    if a.status = .ok then
      { s with csrf := some (a.body.toObject.get "csrf").toString, busy := false }.enterApp
    else { s with busy := false }
  | none => { s with busy := false }

/-- `doLogout` goes on, whatever the answer was. -/
def logoutDone (s : Shell L) : Shell L := { s with csrf := none, view := .login }

/-- So does a function that saves something. -/
def saveDone (s : Shell L) : Shell L := { s with busy := false }

/-- What a function does when its request is over; `none` when the request failed. An
answer with status 401 raises `unauthorized` first. -/
def done (s : Shell L) (origin : ShellOrigin) (answer : Option Response) : Shell L :=
  let s := if answer.any (·.status = .unauthorized) && origin ≠ .gone then s.unauthorized else s
  match origin with
  | .init => s.initDone answer
  | .doSetup | .doLogin => s.signInDone answer
  | .doLogout => s.logoutDone
  | .save => s.saveDone
  | .other | .gone => s

def find (s : Shell L) (id : Nat) : Option ShellRequest := s.requests.find? (·.id = id)

/-- The request goes over to another state. -/
def update (s : Shell L) (r : ShellRequest) : Shell L :=
  { s with requests := s.requests.map fun r' => if r'.id = r.id then r else r' }

/-- The request is over. -/
def forget (s : Shell L) (id : Nat) : Shell L :=
  { s with requests := s.requests.filter (·.id ≠ id) }

/-- The state of the daemon. -/
def withState (s : Shell L) (st : State L) : Shell L :=
  { s with daemon := { s.daemon with main := { s.daemon.main with state := st } } }

/-- The browser takes over the cookie an answer sets. One whose lifetime is over is
deleted. -/
def takeCookie (s : Shell L) (a : Response) (now : Int) : Shell L :=
  match a.setCookie with
  | some header => { s with jar := (receiveCookie header now).filter (now < ·.expires) }
  | none => s

/-- One event. The buttons are there in their views, those of the forms while the page is
not busy; what sends a request that changes something is such a button, other functions go
on with what they read. A request that fails may still reach the daemon. -/
def step (s : Shell L) : ShellEvent → Shell L
  | .load now => s.load now
  | .doSetup pw pw2 now => if s.view = .setup ∧ s.busy = false then s.doSetup pw pw2 now else s
  | .doLogin pw now => if s.view = .login ∧ s.busy = false then s.doLogin pw now else s
  | .doLogout now => if s.view = .app then s.send .doLogout .logout [] (some (.obj [])) now else s
  | .request holds route query body now =>
    if route.ofPage ∧ (s.view = .app ∨ route.method = some .Get ∨ route.method = none) then
      if holds then
        if s.busy then s else { s with busy := true }.send .save route query body now
      else s.send .other route query body now
    else s
  | .serve id m =>
    match s.find id with
    | some r =>
      if r.reply.isSome then s
      else
        let served := Api.serve (r.call m) s.daemon.state
        (s.withState served.1).update { r with reply := some served.2 }
    | none => s
  | .workDone id =>
    match s.find id with
    | some r =>
      match r.reply with
      | some (.later w) =>
        let done := Api.runWork w s.daemon.state
        (s.withState done.1).update { r with reply := some (.now done.2) }
      | _ => s
    | none => s
  | .arrive id now =>
    match s.find id with
    | some r =>
      match r.reply with
      | some (.now a) =>
        if r.arrived || r.origin = .gone then s
        else (s.takeCookie a now).update { r with arrived := true }
      | _ => s
    | none => s
  | .resume id =>
    match s.find id with
    | some r =>
      match r.reply with
      | some (.now a) => if r.arrived then (s.forget id).done r.origin (some a) else s
      | _ => s
    | none => s
  | .fail id =>
    match s.find id with
    | some r =>
      if r.origin = .gone then s else (s.update { r with origin := .gone }).done r.origin none
    | none => s
  | .elsewhere e => { s with daemon := (Process.machine L).next s.daemon e }

/-- The page as a machine. -/
def machine (L : Library) : Machine (Shell L) ShellEvent Unit where
  step s e := (s.step e, ())

/-- A browser that opens the page. -/
def opened (daemon : Process L) (jar : Option SessionCookie) (now : Int) : Shell L :=
  load { daemon, jar } now

end Shell

end TiBackup
