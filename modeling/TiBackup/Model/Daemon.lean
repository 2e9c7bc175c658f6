import TiBackup.Model.Library
import TiBackup.Model.SessionStore

/-!
# TiBackup.Model.Daemon

The state of the running daemon, and HTTP requests and responses as the handlers of
`webserver/apirouter.cpp` see them.

A handler maps a request and a state to a new state and a `Reply`. Handlers that
block on the network return a `QFuture`: the main thread is free again at once, and
the rest of the work, closed over the values it captured, runs later on a worker.
`Reply.later` carries that work; `Api.finish` (in `TiBackup.Model.Router`) runs it in
whatever state the daemon has reached by then.

What a handler reads besides the request (the clock, random bytes, the uuid a record
constructor draws) is its `Moment`.
-/

namespace TiBackup

open Lib

/-- The state of the daemon. -/
structure State (L : Library) where
  conf : L.Conf
  sessions : SessionStore
  jobs : L.jobs.Carrier
  pbs : L.pbs.Carrier
  ssh : L.ssh.Carrier
  manager : L.manager.Carrier
  host : L.system.Host
  debugLogging : Bool
  secureCookies : Bool

/-- An HTTP request: the headers, address, query items and parsed body the handlers
look at. -/
structure Request where
  cookie : String := ""
  csrfToken : String := ""
  remoteAddress : String := ""
  query : List (String × String) := []
  body : Option Json := none

/-- What a handler reads while it runs: the clock (`now` first, `later` after the
password check, `created` when a session is entered, all in seconds) and what it
draws at random. -/
structure Moment where
  now : Int
  later : Int
  created : Int
  rawToken : RandomBytes
  rawCsrf : RandomBytes
  rawSalt : { raw : Bytes // raw.length = 16 }
  uuid : String

/-- `QHttpServerResponse::StatusCode`. -/
inductive StatusCode
  | ok
  | badRequest
  | unauthorized
  | forbidden
  | notFound
  | conflict
  | tooManyRequests
  | internalServerError
  | badGateway
  deriving Repr, DecidableEq

/-- A response: status, JSON body and the session cookie it sets. -/
structure Response where
  status : StatusCode
  body : Json
  setCookie : Option String := none

/-- The work a handler leaves to a worker thread, with the values it captured. -/
inductive Work
  | respond (r : Response)
  | testMail (p : MailParams) (recipient : String)
  | pbsTest (login : PbsLogin)
  | pbsDatastores (pb : PBServer)
  | pbsGroups (pb : PBServer) (datastore : String)
  | sshTest (srv : SSHServer) (uuid : String)
  | sshBrowse (srv : SSHServer) (target : String)
  | sshMkdir (srv : SSHServer) (full : String)

/-- What a handler returns: a response, or work whose result will be the response. -/
inductive Reply
  | now (r : Response)
  | later (w : Work)

/-- An answer that is ready, from a handler that returns a future. -/
def Reply.future (r : Response) : Reply := .later (.respond r)

/-- A request handler. -/
abbrev Handler (L : Library) := Request → Moment → State L → State L × Reply

/-! ### Responses -/

def jsonResp (body : Json) (status : StatusCode := .ok) : Response := { status, body }

def errResp (msg : String) (status : StatusCode) : Response :=
  jsonResp (.obj [("error", .str msg)]) status

def unauthorized : Response := errResp "authentication required" .unauthorized

def forbidden : Response := errResp "forbidden" .forbidden

def okResp : Response := jsonResp (.obj [("ok", .bool true)])

/-! ### Requests -/

/-- `parseBody`: the fields of an object, none for everything else. -/
def parseBody (req : Request) : Json.Fields := (req.body.getD .null).toObject

theorem parseBody_obj {req : Request} {o : Json.Fields} (h : req.body = some (.obj o)) :
    parseBody req = o := by
  rw [parseBody, h]
  rfl

/-- `queryItemValue`: the first item of that name, empty when there is none. -/
def queryItemValue (req : Request) (name : String) : String := (req.query.lookup name).getD ""

/-- One item of a Cookie header: its name and value, if it has a name. -/
def cookieItem (p : List Char) : Option (String × String) :=
  let t := trimmed isAsciiSpace p
  let eq := t.idxOf '='
  if 0 < eq ∧ eq < t.length then some (String.ofList (t.take eq), String.ofList (t.drop (eq + 1)))
  else none

/-- `cookieValue`: the value of the first item with that name. `QString::fromUtf8` drops a
byte-order mark in front of it. -/
def cookieValue (req : Request) (name : String) : String :=
  match (req.cookie.toList.splitOn ';').findSome? fun p =>
      (cookieItem p).bind fun kv => if kv.1 = name then some kv.2 else none with
  | some v => String.ofList (dropMark v.toList)
  | none => ""

/-- `ApiRouter::sessionToken`. -/
def sessionToken (req : Request) : String := cookieValue req "tibackup_sid"

/-! ### The two checks -/

variable {L : Library}

namespace Api

/-- `if(!isAuthed(req)) return unauthorized();`: validating the session may erase or
refresh it. -/
def withAuth (reply : Response → Reply) (k : Handler L) : Handler L := fun req m st =>
  let v := st.sessions.validate m.now (sessionToken req)
  let st := { st with sessions := v.1 }
  if v.2 then k req m st else (st, reply unauthorized)

/-- `csrfOk`: the header carries the non-empty CSRF token of the session. -/
def csrfOk (st : State L) (req : Request) : Bool :=
  let want := st.sessions.csrfFor (sessionToken req)
  if want.isEmpty then false else req.csrfToken = want

/-- `if(!csrfOk(req)) return forbidden();` -/
def withCsrf (reply : Response → Reply) (k : Handler L) : Handler L := fun req m st =>
  if csrfOk st req then k req m st else (st, reply forbidden)

/-- A handler that only reads the state. -/
def reads (f : Request → State L → Reply) : Handler L := fun req _ st => (st, f req st)

end Api

/-! ### Configuration -/

namespace State

def getValue (st : State L) (key : String) : QVariant := L.getValue st.conf key

def setValue (st : State L) (key : String) (v : QVariant) : State L :=
  { st with conf := L.setValue st.conf key v }

theorem getValue_setValue (st : State L) (k k' : String) (v : QVariant) :
    (st.setValue k v).getValue k' = if k' = k then v else st.getValue k' :=
  L.getValue_setValue st.conf k v k'

@[simp] theorem getValue_setValue_self (st : State L) (k : String) (v : QVariant) :
    (st.setValue k v).getValue k = v := by
  rw [getValue_setValue, if_pos rfl]

theorem getValue_setValue_of_ne (st : State L) {k k' : String} (h : k' ≠ k) (v : QVariant) :
    (st.setValue k v).getValue k' = st.getValue k' := by
  rw [getValue_setValue, if_neg h]

end State

end TiBackup
