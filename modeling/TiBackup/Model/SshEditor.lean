import TiBackup.Model.PbsEditor
import TiBackup.Model.Process

/-!
# TiBackup.Model.SshEditor

The editor of SSH servers of `var/www/js/app.js`: `newSsh`, `editSsh`, `saveSsh` and
`testSsh`, with the daemon that serves their requests and the worker of a test.

The form is kept as its fields, as in the editor of PBS servers. It has no input for the
host key: a test that succeeds puts the key it was shown into the form, and a save sends it
along.
-/

namespace TiBackup

open Lib Lib.Machine

variable {L : Library}

/-- `blankSsh`. -/
def blankSsh : Json.Fields :=
  [("uuid", .str ""), ("name", .str ""), ("host", .str ""), ("port", .int 22), ("username", .str ""),
   ("keyfile", .str ""), ("keypass", .str ""), ("hostkey", .str ""), ("fingerprint", .str ""),
   ("hostkey_set", .bool false)]

/-- What the admin puts into a field of the form; all but the port are text. -/
inductive SshInput
  | name (text : String)
  | host (text : String)
  | port (value : Json)
  | username (text : String)
  | keyfile (text : String)
  | keypass (text : String)

/-- The field the input is bound to, and its value. -/
def SshInput.field : SshInput → String × Json
  | .name text => ("name", .str text)
  | .host text => ("host", .str text)
  | .port value => ("port", value)
  | .username text => ("username", .str text)
  | .keyfile text => ("keyfile", .str text)
  | .keypass text => ("keypass", .str text)

/-- The function that waits for an answer. -/
inductive SshOrigin
  | editSsh
  | saveSsh
  | testSsh
  deriving Repr, DecidableEq

/-- A request in flight, and what the daemon replied. -/
structure SshCall where
  origin : SshOrigin
  route : Route
  req : Request
  reply : Option Reply := none

/-- The editor, the requests in flight and the daemon. -/
structure SshEditor (L : Library) where
  daemon : Process L
  /-- What the browser sends along. -/
  cookie : String
  csrf : String
  sshForm : Json.Fields := blankSsh
  sshTest : String := ""
  sshEditorOpen : Bool := false
  busy : Bool := false
  calls : List SshCall := []

/-- What can happen. -/
inductive SshEditorEvent
  | newSsh
  | editSsh (uuid : String)
  /-- The admin types into a field, or picks a key file. -/
  | type (input : SshInput)
  | testSsh
  | saveSsh
  /-- The editor is closed without saving. -/
  | cancel
  /-- The main thread serves a request. -/
  | serve (i : Nat) (m : Moment)
  /-- A worker is done with what a request left it. -/
  | worked (i : Nat)
  /-- An answer arrives. -/
  | answer (i : Nat)
  /-- A request fails. -/
  | fail (i : Nat) (message : String)
  /-- Something else happens in the daemon. -/
  | elsewhere (e : Process.Happening)

namespace SshEditor

/-- `api.req`: unsafe requests carry the CSRF token. -/
def send (s : SshEditor L) (origin : SshOrigin) (route : Route) (body : Option Json) :
    SshEditor L :=
  { s with
    calls := s.calls ++
      [{ origin, route
         req := { cookie := s.cookie, body
                  csrfToken := if route.method = some .Get then "" else s.csrf } }] }

/-- The text of a form field. -/
def text (s : SshEditor L) (field : String) : String := (s.sshForm.get field).toString

def newSsh (s : SshEditor L) : SshEditor L :=
  { s with sshForm := blankSsh, sshTest := "", sshEditorOpen := true }

/-- No route has an empty argument. -/
def editSsh (s : SshEditor L) (uuid : String) : SshEditor L :=
  if uuid.isEmpty then s else s.send .editSsh (.getSsh uuid) none

def editSshDone (s : SshEditor L) : Except String Json.Fields → SshEditor L
  | .ok o =>
    { s with
      sshForm := ((o.set "keypass" (.str "")).set "hostkey" (.str "")).set "fingerprint" (.str "")
      sshTest := ""
      sshEditorOpen := true }
  | .error _ => s

def saveSsh (s : SshEditor L) : SshEditor L :=
  if (s.text "name").isEmpty || (s.text "host").isEmpty || (s.text "username").isEmpty then s
  else
    let s := { s with busy := true }
    -- A server that was never saved has no uuid.
    if (s.text "uuid").isEmpty then s.send .saveSsh .postSsh (some (.obj s.sshForm))
    else s.send .saveSsh (.putSsh (s.text "uuid")) (some (.obj s.sshForm))

def saveSshDone (s : SshEditor L) : Except String Json.Fields → SshEditor L
  | .ok _ => { s with sshEditorOpen := false, busy := false }
  | .error _ => { s with busy := false }

def testSsh (s : SshEditor L) : SshEditor L :=
  let s := { s with sshTest := "…" }
  s.send .testSsh .sshTest <| some <| .obj <|
    if (s.text "uuid").isEmpty then s.sshForm else [("uuid", .str (s.text "uuid"))]

/-- The key goes into the form that is there now. -/
def testSshDone (s : SshEditor L) : Except String Json.Fields → SshEditor L
  | .ok o =>
    if (o.get "ok").toBool then
      { s with
        sshTest := "Connection OK — host key captured"
        sshForm := (s.sshForm.set "hostkey" (.str (o.get "hostkey").toString)).set "fingerprint"
          (.str (o.get "fingerprint").toString) }
    else
      { s with
        sshTest := if (o.get "message").toString.isEmpty then "Failed"
          else "Failed: " ++ (o.get "message").toString }
  | .error message => { s with sshTest := "Failed: " ++ message }

/-- An input is bound to its field of the form. -/
def type (s : SshEditor L) (input : SshInput) : SshEditor L :=
  { s with sshForm := s.sshForm.set input.field.1 input.field.2 }

/-- What a function does when its request is over. -/
def done (s : SshEditor L) : SshOrigin → Except String Json.Fields → SshEditor L
  | .editSsh => s.editSshDone
  | .saveSsh => s.saveSshDone
  | .testSsh => s.testSshDone

/-- The daemon has another state, and a request a reply. -/
def replied (s : SshEditor L) (i : Nat) (r : SshCall) (st : State L) (reply : Reply) :
    SshEditor L :=
  { s with
    daemon := { s.daemon with main := { s.daemon.main with state := st } }
    calls := s.calls.set i { r with reply := some reply } }

/-- The request is over. -/
def forget (s : SshEditor L) (i : Nat) : SshEditor L := { s with calls := s.calls.eraseIdx i }

/-- One event. The inputs and buttons are there while the editor is open, the save button
while it is not busy. -/
def step (s : SshEditor L) : SshEditorEvent → SshEditor L
  | .newSsh => s.newSsh
  | .editSsh uuid => s.editSsh uuid
  | .type input => if s.sshEditorOpen then s.type input else s
  | .testSsh => if s.sshEditorOpen then s.testSsh else s
  | .saveSsh => if s.sshEditorOpen && !s.busy then s.saveSsh else s
  | .cancel => { s with sshEditorOpen := false }
  | .serve i m =>
    match s.calls[i]? with
    | some r =>
      if r.reply.isSome then s
      else
        let served := Api.serve ⟨r.route, r.req, m⟩ s.daemon.state
        s.replied i r served.1 served.2
    | none => s
  | .worked i =>
    match s.calls[i]? with
    | some r =>
      match r.reply with
      | some (.later w) =>
        let done := Api.runWork w s.daemon.state
        s.replied i r done.1 (.now done.2)
      | _ => s
    | none => s
  | .answer i =>
    match s.calls[i]? with
    | some r =>
      match r.reply with
      | some (.now a) => (s.forget i).done r.origin (PbsEditor.received a)
      | _ => s
    | none => s
  | .fail i message =>
    match s.calls[i]? with
    | some r => (s.forget i).done r.origin (.error message)
    | none => s
  | .elsewhere e => { s with daemon := (Process.machine L).next s.daemon e }

/-- The editor as a machine. -/
def machine (L : Library) : Machine (SshEditor L) SshEditorEvent Unit where
  step s e := (step s e, ())

/-- A page that was just loaded. -/
def start (daemon : Process L) (cookie csrf : String) : SshEditor L := { daemon, cookie, csrf }

end SshEditor

end TiBackup
