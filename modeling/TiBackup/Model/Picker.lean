import TiBackup.Lib.Machine
import TiBackup.Lib.Path
import TiBackup.Model.Router
import TiBackup.Model.WebApp

/-!
# TiBackup.Model.Picker

The path picker of `var/www/js/app.js`, from `openPicker` to `pickerPlaces`, with the
elements of `index.html` it is used by: the button that goes one folder up, the crumbs, the
places, the rows of the listing, the field with the path and the two buttons below it.

`pickerLoad` sends a request and goes on when it is answered; what it does then is
`pickerLoaded`. It does not look whether another folder was asked for since, or the picker
was opened for something else.

**Spaces.** The requests are made with `URLSearchParams`, which writes a space as a plus
sign. `QUrlQuery` leaves plus signs as they are, so the daemon reads one for every space
(`formValue`).
-/

namespace TiBackup

open Lib Lib.Machine Lib.Path

/-- A row of the listing. -/
structure PickerEntry where
  name : String
  isDir : Bool
  deriving Repr, DecidableEq

def PickerEntry.ofJson (j : Json) : PickerEntry where
  name := (j.toObject.get "name").toString
  isDir := (j.toObject.get "isDir").toBool

/-- A button with a path behind it. -/
structure Crumb where
  label : String
  path : String
  deriving Repr, DecidableEq

/-- A request for a listing that is under way. -/
structure PickerRequest where
  route : Route
  query : List (String × String)
  deriving Repr, DecidableEq

/-- The state of the picker, and the requests whose answers have not arrived yet. -/
structure Picker where
  pickerOpen : Bool := false
  pickerMode : String := "src"
  pickerUuid : String := ""
  pickerSshUuid : String := ""
  pickerFiles : Bool := false
  pickerBase : String := ""
  pickerPath : String := ""
  pickerParent : String := ""
  pickerEntries : List PickerEntry := []
  pickerSel : String := ""
  /-- Somebody waits for a choice. -/
  pickerResolve : Bool := false
  requests : List PickerRequest := []

/-- What can happen to the picker. -/
inductive PickerEvent
  | openPicker (mode uuid sshUuid : String) (files : Bool)
  /-- The button that goes one folder up. -/
  | up
  /-- The button of a crumb. -/
  | crumb (i : Nat)
  /-- The button of a place. -/
  | place (i : Nat)
  /-- A row is clicked. -/
  | select (name : String)
  /-- A row is clicked twice. -/
  | activate (e : PickerEntry)
  /-- Something is typed into the field with the path. -/
  | type (text : String)
  /-- The enter key in that field. -/
  | enterKey
  | primary
  | cancel
  /-- The answer to one of the requests arrives. -/
  | answered (i : Nat) (r : Response)
  /-- One of the requests fails. -/
  | failed (i : Nat)

/-- A parameter as the daemon reads it. -/
def formValue (s : String) : String :=
  String.ofList (s.toList.map fun c => if c = ' ' then '+' else c)

namespace Picker

/-- The request of `pickerLoad`. -/
def request (s : Picker) (path : String) : PickerRequest :=
  let params :=
    if s.pickerSshUuid ≠ "" then [("path", path)]
    else [("root", s.pickerMode), ("path", path)] ++
      (if s.pickerUuid ≠ "" then [("uuid", s.pickerUuid)] else []) ++
      (if s.pickerFiles then [("files", "1")] else [])
  { route := if s.pickerSshUuid ≠ "" then .sshBrowse s.pickerSshUuid else .browse
    query := params.map fun p => (p.1, formValue p.2) }

def pickerLoad (s : Picker) (path : String) : Picker :=
  { s with requests := s.requests ++ [s.request path] }

/-- An error is shown in a toast and nothing else happens. -/
def pickerLoaded (s : Picker) (r : Response) : Picker :=
  let o := r.body.toObject
  if r.status ≠ .ok then s
  else
    { s with
      pickerBase := (o.get "base").toString
      pickerPath := (o.get "path").toString
      pickerParent := (o.get "parent").toString
      pickerEntries := (o.get "entries").toArray.map PickerEntry.ofJson
      pickerSel := "" }

/-- What was listed last stays until there is an answer. -/
def openPicker (s : Picker) (mode uuid sshUuid : String) (files : Bool) : Picker :=
  { s with
    pickerMode := mode, pickerUuid := uuid, pickerSshUuid := sshUuid, pickerFiles := files
    pickerPath := "", pickerSel := "", pickerOpen := true, pickerResolve := true }.pickerLoad ""

/-- The picker is closed, and whoever waits is told. -/
def resolve (s : Picker) (choice : Option String) : Picker × Option (Option String) :=
  ({ s with pickerOpen := false, pickerResolve := false },
    if s.pickerResolve then some choice else none)

def pickerChoose (s : Picker) (name : String) : Picker × Option (Option String) :=
  s.resolve (some (if name ≠ "" then WebApp.pickerEnter s.pickerPath name else s.pickerPath))

def pickerActivate (s : Picker) (e : PickerEntry) : Picker × Option (Option String) :=
  if e.isDir then (s.pickerLoad (WebApp.pickerEnter s.pickerPath e.name), none)
  else if s.pickerFiles then s.pickerChoose e.name
  else (s, none)

def pickerSelEntry (s : Picker) : Option PickerEntry :=
  s.pickerEntries.find? fun e => e.name = s.pickerSel

def pickerPrimary (s : Picker) : Picker × Option (Option String) :=
  match s.pickerSelEntry with
  | some e =>
    if s.pickerFiles then if !e.isDir then s.pickerChoose e.name else (s, none)
    else s.pickerChoose (if e.isDir then e.name else "")
  | none => if s.pickerFiles then (s, none) else s.pickerChoose ""

/-- The crumbs behind the first one. -/
def crumbsFrom (acc : String) : List (List Char) → List Crumb
  | [] => []
  | seg :: rest =>
    let path := acc ++ "/" ++ String.ofList seg
    ⟨String.ofList seg, path⟩ :: crumbsFrom path rest

def pickerCrumbs (s : Picker) : List Crumb :=
  let base := if s.pickerBase.isEmpty then "/" else s.pickerBase
  let cur := if s.pickerPath.isEmpty then base else s.pickerPath
  let label := if base = "/" then "/"
    else ((components base).getLast?.map String.ofList).getD base
  ⟨label, base⟩ ::
    if cur ≠ base ∧ base.toList.isPrefixOf cur.toList then
      let rest := cur.toList.drop (if base = "/" then 1 else base.length)
      crumbsFrom (if base = "/" then "" else base) (components (String.ofList rest))
    else []

def pickerPlaces (s : Picker) : List Crumb :=
  if s.pickerSshUuid ≠ "" then [⟨"Root", "/"⟩]
  else if s.pickerMode = "dest" then [⟨"This disk", s.pickerBase⟩]
  else if s.pickerMode = "script" then [⟨"Scripts", s.pickerBase⟩]
  else [⟨"Root", "/"⟩, ⟨"Home", "/root"⟩, ⟨"Media", "/media"⟩, ⟨"Mounts", "/mnt"⟩, ⟨"etc", "/etc"⟩]

/-- The folder behind one of the buttons is asked for. -/
def follow (s : Picker) (buttons : List Crumb) (i : Nat) : Picker :=
  match buttons[i]? with
  | some c => s.pickerLoad c.path
  | none => s

/-- One event, and what is chosen by it: a path, or nothing if the picker is cancelled. -/
def step (s : Picker) : PickerEvent → Picker × Option (Option String)
  | .openPicker mode uuid sshUuid files => (s.openPicker mode uuid sshUuid files, none)
  -- In the base the button is disabled.
  | .up => (if s.pickerPath = s.pickerBase then s else s.pickerLoad s.pickerParent, none)
  | .crumb i => (s.follow s.pickerCrumbs i, none)
  | .place i => (s.follow s.pickerPlaces i, none)
  | .select name => ({ s with pickerSel := name }, none)
  | .activate e => s.pickerActivate e
  | .type text => ({ s with pickerPath := text }, none)
  | .enterKey => (s.pickerLoad s.pickerPath, none)
  | .primary => s.pickerPrimary
  | .cancel => s.resolve none
  | .answered i r =>
    if i < s.requests.length then
      ({ s with requests := s.requests.eraseIdx i }.pickerLoaded r, none)
    else (s, none)
  | .failed i => ({ s with requests := s.requests.eraseIdx i }, none)

/-- The picker as a machine. -/
def machine : Machine Picker PickerEvent (Option (Option String)) where
  step := step

end Picker

end TiBackup
