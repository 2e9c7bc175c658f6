import TiBackup.Lib.Grouping
import TiBackup.Lib.Json
import TiBackup.Lib.Replace
import TiBackup.Model.LogPage
import TiBackup.Model.Validate

/-!
# TiBackup.Model.WebApp

Functions of `var/www/js/app.js` that compute what the page shows or stores from what it
got: `toGeneric`, which makes a chosen destination independent of the disk, the name check
of `pickerNewFolder`, `pickerEnter`, which opens a folder, and `runGroups` and `rsyncGroups`,
the lists of runs in the log view.

JavaScript compares texts by their UTF-16 units, and an object that is used as a map has
the members of `Object.prototype` from the beginning.
-/

namespace TiBackup

open Lib

namespace WebApp

/-! ### Destinations -/

/-- The variable that stands for the mount directory of the backup disk. -/
def mntBackupDir : String := "%MNTBACKUPDIR%"

/-- `toGeneric`: `startsWith`, then `replace` of the first occurrence. An empty mount
directory counts as none. -/
def toGeneric (editorMountDir abs : String) : String :=
  if !editorMountDir.isEmpty && editorMountDir.toList.isPrefixOf abs.toList then
    String.ofList (replaceFirst editorMountDir.toList mntBackupDir.toList abs.toList)
  else abs

/-- `pickerNewFolder`: the name that is sent for what was typed, if it is one. Here `$`
matches at the very end only. -/
def pickerNewFolder (pickerNewName : String) : Option String :=
  let name := String.ofList (trimmed isTrimmedChar pickerNewName.toList)
  if !oneOrMore isNameChar name.toList || name = "." || name = ".." then none else some name

/-- `pickerEnter`: the path that is asked for next. One slash at the end is dropped. -/
def pickerEnter (pickerPath name : String) : String :=
  let base := pickerPath.toList
  let base := if base.getLast? = some '/' then base.dropLast else base
  String.ofList base ++ "/" ++ name

/-! ### The list of runs -/

/-- An entry of the run list as the page got it. -/
structure RunEntry where
  file : String
  date : String
  name : String
  deriving Repr, DecidableEq

def RunEntry.ofJson (j : Json) : RunEntry where
  file := (j.toObject.get "file").toString
  date := (j.toObject.get "date").toString
  name := (j.toObject.get "name").toString

/-- The runs of one job in the log view. -/
structure RunGroup where
  name : String
  runs : List RunEntry

/-- The members that `{}` has, too. -/
def objectPrototype : List String :=
  ["constructor", "__defineGetter__", "__defineSetter__", "hasOwnProperty", "__lookupGetter__",
    "__lookupSetter__", "isPrototypeOf", "propertyIsEnumerable", "toString", "valueOf", "__proto__",
    "toLocaleString"]

/-- The UTF-16 units of a text. -/
def codeUnits (s : String) : List Nat :=
  s.toList.flatMap fun c =>
    if c.toNat < 0x10000 then [c.toNat]
    else [0xd800 + (c.toNat - 0x10000) / 0x400, 0xdc00 + (c.toNat - 0x10000) % 0x400]

/-- `(m[r.name] || (m[r.name] = [])).push(r)`: a member of `Object.prototype` is there
already and is no list, so this throws. -/
def pushRun (m : StringMap (List RunEntry)) (r : RunEntry) : Option (StringMap (List RunEntry)) :=
  if r.name ∈ objectPrototype then none else some (m.insert r.name (m[r.name]?.getD [] ++ [r]))

/-- `runGroups`: one group a name, the newest run first. Nothing comes of it when it
throws. -/
def runGroups (runs : List RunEntry) : Option (List RunGroup) :=
  (runs.foldlM pushRun ∅).map fun m =>
    (m.toList.mergeSort fun a b => ¬ codeUnits b.1 < codeUnits a.1).map fun p =>
      { name := p.1, runs := p.2.mergeSort fun a b => ¬ codeUnits a.date < codeUnits b.date }

/-- An entry of the list of raw rsync logs. -/
structure RsyncEntry where
  job : String
  file : String
  date : String
  deriving Repr, DecidableEq

/-- The raw rsync logs of one job. -/
structure RsyncGroup where
  name : String
  runs : List RsyncEntry

/-- The order that `sort` puts names in. -/
def keyLe (a b : String) : Bool := ¬ codeUnits b < codeUnits a

/-- The order of a group: the later date first. -/
def newestFirst {α : Type} (date : α → String) (a b : α) : Bool :=
  ¬ codeUnits (date a) < codeUnits (date b)

/-- `rsyncGroups`: grouped like `runGroups`, by the job. -/
def rsyncGroups (rsyncRuns : List RsyncEntry) : Option (List RsyncGroup) :=
  (groups objectPrototype RsyncEntry.job keyLe (newestFirst RsyncEntry.date) rsyncRuns).map
    (List.map fun p => { name := p.1, runs := p.2 })

/-- `runGroups` is the same by the name. -/
theorem runGroups_eq (runs : List RunEntry) :
    runGroups runs =
      (groups objectPrototype RunEntry.name keyLe (newestFirst RunEntry.date) runs).map
        (List.map fun p => { name := p.1, runs := p.2 }) := by
  rw [groups, Option.map_map, runGroups]
  refine congrArg₂ Option.map (funext fun m => ?_) rfl
  rw [Function.comp_apply, List.map_map]
  rfl

/-- `isRunning`, in the list of names and statuses. -/
def isRunning (jobs : List (String × String)) (name : String) : Bool :=
  jobs.any fun j => j.1 = name && j.2 = "running"

/-- Is the row at this place of a group marked live? -/
def markedLive (jobs : List (String × String)) (g : RunGroup) (idx : Nat) : Bool :=
  isRunning jobs g.name && idx = 0

end WebApp

end TiBackup
