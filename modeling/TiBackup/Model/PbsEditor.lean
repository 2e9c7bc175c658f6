import TiBackup.Lib.Machine
import TiBackup.Model.Router

/-!
# TiBackup.Model.PbsEditor

The editor of PBS servers of `var/www/js/app.js`: `editPbs`, `savePbs` and `testPbs`.

The form is a JavaScript object; it is kept as its fields, since it is sent as it is and
`editPbs` replaces it by what the daemon returned. Each of the three functions sends a
request (`js/api.js`) and goes on when it is answered or fails; what it does after its
`await` is a function of its own, named `…Done`. The daemon serves requests in any order,
the tests on a worker.

Beside the state a record is kept of what was typed as a fingerprint, and of the
certificates a test reported as verified. It decides nothing.
-/

namespace TiBackup

open Lib Lib.Machine

variable {L : Library}

/-- `blankPbs`. -/
def blankPbs : Json.Fields :=
  [("uuid", .str ""), ("name", .str ""), ("host", .str ""), ("port", .int 8007),
   ("username", .str ""), ("password", .str ""), ("fingerprint", .str ""), ("keyfile", .str ""),
   ("keypass", .str "")]

/-- What the admin puts into a field of the form; all but the port are text. -/
inductive PbsInput
  | name (text : String)
  | host (text : String)
  | port (value : Json)
  | username (text : String)
  | password (text : String)
  | fingerprint (text : String)
  | keyfile (text : String)
  | keypass (text : String)

/-- The field the input is bound to, and its value. -/
def PbsInput.field : PbsInput → String × Json
  | .name text => ("name", .str text)
  | .host text => ("host", .str text)
  | .port value => ("port", value)
  | .username text => ("username", .str text)
  | .password text => ("password", .str text)
  | .fingerprint text => ("fingerprint", .str text)
  | .keyfile text => ("keyfile", .str text)
  | .keypass text => ("keypass", .str text)

/-- The text beside the test button. -/
inductive PbsVerdict
  | blank
  /-- `…` -/
  | waiting
  /-- `Connection OK (status) — fingerprint captured` -/
  | captured (status : Json)
  /-- `Connection OK but fingerprint MISMATCH — verify the server!` -/
  | mismatch
  /-- `Failed (status)` -/
  | failed (status : Json)
  /-- `Failed: message` -/
  | error (message : String)

/-- The function that waits for an answer. -/
inductive PbsOrigin
  | editPbs
  | savePbs
  | testPbs
  deriving Repr, DecidableEq

/-- A request in flight, and what the daemon replied. -/
structure PbsRequest where
  id : Nat
  origin : PbsOrigin
  route : Route
  req : Request
  reply : Option Reply := none

/-- The editor, the requests in flight and the daemon. -/
structure PbsEditor (L : Library) where
  daemon : State L
  /-- What the browser sends along. -/
  cookie : String
  csrf : String
  pbsForm : Json.Fields := blankPbs
  pbsTest : PbsVerdict := .blank
  pbsEditorOpen : Bool := false
  busy : Bool := false
  requests : List PbsRequest := []
  nextRequest : Nat := 0
  /-- Record: what was typed as a fingerprint. -/
  typed : List String := []
  /-- Record: the certificates a test reported as verified. -/
  verified : List String := []

/-- What can happen. -/
inductive PbsEvent
  | editPbs (uuid : String)
  /-- The admin types into a field. -/
  | type (input : PbsInput)
  | testPbs
  | savePbs
  /-- The editor is closed without saving. -/
  | cancel
  /-- The main thread serves a request. -/
  | serve (id : Nat) (m : Moment)
  /-- The worker of a test has connected. -/
  | connected (id : Nat) (code : Int) (presented : String)
  /-- An answer arrives. -/
  | answer (id : Nat)
  /-- A request fails. -/
  | fail (id : Nat) (message : String)

namespace PbsEditor

/-- `api.req`: unsafe requests carry the CSRF token. -/
def send (s : PbsEditor L) (origin : PbsOrigin) (route : Route) (body : Option Json) :
    PbsEditor L :=
  { s with
    requests := s.requests ++
      [{ id := s.nextRequest, origin, route
         req := { cookie := s.cookie, body
                  csrfToken := if route.method = some .Get then "" else s.csrf } }]
    nextRequest := s.nextRequest + 1 }

/-- What `api.req` makes of a response: its fields, or the message of what is thrown. -/
def received (r : Response) : Except String Json.Fields :=
  if r.status = .ok then .ok r.body.toObject else .error (r.body.toObject.get "error").toString

/-- The text of a form field. -/
def text (s : PbsEditor L) (field : String) : String := (s.pbsForm.get field).toString

/-- No route has an empty argument. -/
def editPbs (s : PbsEditor L) (uuid : String) : PbsEditor L :=
  if uuid.isEmpty then s else s.send .editPbs (.getPbs uuid) none

def editPbsDone (s : PbsEditor L) : Except String Json.Fields → PbsEditor L
  | .ok o =>
    { s with
      pbsForm := (o.set "password" (.str "")).set "keypass" (.str "")
      pbsTest := .blank
      pbsEditorOpen := true }
  | .error _ => s

def savePbs (s : PbsEditor L) : PbsEditor L :=
  if (s.text "name").isEmpty || (s.text "host").isEmpty then s
  else
    let s := { s with busy := true }
    -- A server that was never saved has no uuid.
    if (s.text "uuid").isEmpty then s.send .savePbs .postPbs (some (.obj s.pbsForm))
    else s.send .savePbs (.putPbs (s.text "uuid")) (some (.obj s.pbsForm))

def savePbsDone (s : PbsEditor L) : Except String Json.Fields → PbsEditor L
  | .ok _ => { s with pbsEditorOpen := false, busy := false }
  | .error _ => { s with busy := false }

def testPbs (s : PbsEditor L) : PbsEditor L :=
  let s := { s with pbsTest := .waiting }
  s.send .testPbs .pbsTest <| some <| .obj <|
    if (s.text "uuid").isEmpty then s.pbsForm else [("uuid", .str (s.text "uuid"))]

def testPbsDone (s : PbsEditor L) : Except String Json.Fields → PbsEditor L
  | .ok o =>
    if (o.get "ok").toBool then
      { s with
        -- The certificate is captured whatever `verified` says.
        pbsForm := if (o.get "fingerprint").toString.isEmpty then s.pbsForm
          else s.pbsForm.set "fingerprint" (o.get "fingerprint")
        pbsTest := match o.get "verified" with
          | .bool false => .mismatch
          | _ => .captured (o.get "status")
        verified := if (o.get "verified").toBool then (o.get "fingerprint").toString :: s.verified
          else s.verified }
    else { s with pbsTest := .failed (o.get "status") }
  | .error message => { s with pbsTest := .error message }

/-- An input is bound to its field of the form. -/
def type (s : PbsEditor L) (input : PbsInput) : PbsEditor L :=
  { s with
    pbsForm := s.pbsForm.set input.field.1 input.field.2
    typed := match input with
      | .fingerprint text => text :: s.typed
      | _ => s.typed }

/-- What a function does when its request is over. -/
def done (s : PbsEditor L) : PbsOrigin → Except String Json.Fields → PbsEditor L
  | .editPbs => s.editPbsDone
  | .savePbs => s.savePbsDone
  | .testPbs => s.testPbsDone

def find (s : PbsEditor L) (id : Nat) : Option PbsRequest := s.requests.find? (·.id = id)

/-- The request has a reply now. -/
def replied (s : PbsEditor L) (r : PbsRequest) (reply : Reply) : PbsEditor L :=
  { s with
    requests := s.requests.map fun r' => if r'.id = r.id then { r with reply := some reply } else r' }

/-- The request is over. -/
def forget (s : PbsEditor L) (id : Nat) : PbsEditor L :=
  { s with requests := s.requests.filter (·.id ≠ id) }

/-- The answer of a request, if it has one. -/
def answerOf (r : PbsRequest) : Option Response :=
  match r.reply with
  | some (.now a) => some a
  | _ => none

/-- One event. The buttons and inputs are there while the editor is open, the save button
while it is not busy. -/
def step (s : PbsEditor L) : PbsEvent → PbsEditor L
  | .editPbs uuid => s.editPbs uuid
  | .type input => if s.pbsEditorOpen then s.type input else s
  | .testPbs => if s.pbsEditorOpen then s.testPbs else s
  | .savePbs => if s.pbsEditorOpen && !s.busy then s.savePbs else s
  | .cancel => { s with pbsEditorOpen := false }
  | .serve id m =>
    match s.find id with
    | some r =>
      if r.reply.isSome then s
      else
        let served := Api.serve ⟨r.route, r.req, m⟩ s.daemon
        { s with daemon := served.1 }.replied r served.2
    | none => s
  | .connected id code presented =>
    match s.find id with
    | some r =>
      match r.reply with
      | some (.later (.pbsTest login)) =>
        s.replied r (.now (Api.pbsTestDone (L := L) login code presented))
      | some (.later (.respond a)) => s.replied r (.now a)
      | _ => s
    | none => s
  | .answer id =>
    match s.find id with
    | some r =>
      match answerOf r with
      | some a => (s.forget id).done r.origin (received a)
      | none => s
    | none => s
  | .fail id message =>
    match s.find id with
    | some r => (s.forget id).done r.origin (.error message)
    | none => s

def machine (L : Library) : Machine (PbsEditor L) PbsEvent Unit where
  step s e := (step s e, ())

/-- A page that was just loaded. -/
def start (daemon : State L) (cookie csrf : String) : PbsEditor L := { daemon, cookie, csrf }

end PbsEditor

end TiBackup
