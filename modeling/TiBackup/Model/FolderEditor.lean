import TiBackup.Lib.Machine
import TiBackup.Model.LogPage

/-!
# TiBackup.Model.FolderEditor

**The folder pairs in the job editor** of `var/www/js/app.js`: the list of the job, the form
with a source and a destination, and `folderEditIndex`, the position of the pair that is
being edited, or -1. `newJob` and `editJob` are one step each.
-/

namespace TiBackup

open Lib

/-- One of `backupdirs`. -/
structure FolderPair where
  source : String
  dest : String
  deriving Repr, DecidableEq

inductive FolderEvent
  /-- The form is filled in. -/
  | input (source dest : String)
  | addFolder
  | editFolder (i : Nat)
  | removeFolder (i : Nat)
  | cancelFolderEdit
  | newJob
  /-- The job that was asked for has these pairs, or could not be loaded. -/
  | editJob (answer : Option (List FolderPair))
  deriving Repr, DecidableEq

/-- `trim` of what is in the form. -/
def trimText (s : String) : String := String.ofList (trimmed isTrimmedChar s.toList)

/-- `splice`: some elements are taken out and others put in their place. -/
def splice {α : Type} (xs : List α) (start deleteCount : Nat) (items : List α) : List α :=
  xs.take start ++ items ++ xs.drop (start + deleteCount)

structure FolderEditor where
  backupdirs : List FolderPair := []
  folderSource : String := ""
  folderDest : String := ""
  folderEditIndex : Int := -1
  deriving Repr, DecidableEq

namespace FolderEditor

def resetFolderForm (s : FolderEditor) : FolderEditor :=
  { s with folderSource := "", folderDest := "", folderEditIndex := -1 }

/-- `addFolder`: nothing happens while the source or the destination is blank. -/
def addFolder (s : FolderEditor) : FolderEditor :=
  let src := trimText s.folderSource
  let dst := trimText s.folderDest
  if src.isEmpty || dst.isEmpty then s
  else if s.folderEditIndex ≥ 0 then
    resetFolderForm
      { s with backupdirs := splice s.backupdirs s.folderEditIndex.toNat 1 [⟨src, dst⟩] }
  else resetFolderForm { s with backupdirs := s.backupdirs ++ [⟨src, dst⟩] }

/-- `editFolder`: it throws when there is no such pair. -/
def editFolder (i : Nat) (s : FolderEditor) : FolderEditor :=
  match s.backupdirs[i]? with
  | some f => { s with folderSource := f.source, folderDest := f.dest, folderEditIndex := i }
  | none => s

def cancelFolderEdit (s : FolderEditor) : FolderEditor := s.resetFolderForm

def removeFolder (i : Nat) (s : FolderEditor) : FolderEditor :=
  let s : FolderEditor := { s with backupdirs := splice s.backupdirs i 1 [] }
  if s.folderEditIndex = i then s.resetFolderForm
  else if s.folderEditIndex > i then { s with folderEditIndex := s.folderEditIndex - 1 }
  else s

/-- `newJob`: a blank job. -/
def newJob (s : FolderEditor) : FolderEditor := { s.resetFolderForm with backupdirs := [] }

/-- `editJob`: a job that cannot be loaded leaves the editor as it is. -/
def editJob (answer : Option (List FolderPair)) (s : FolderEditor) : FolderEditor :=
  match answer with
  | some dirs => { s.resetFolderForm with backupdirs := dirs }
  | none => s

def step (s : FolderEditor) : FolderEvent → FolderEditor
  | .input source dest => { s with folderSource := source, folderDest := dest }
  | .addFolder => s.addFolder
  | .editFolder i => s.editFolder i
  | .removeFolder i => s.removeFolder i
  | .cancelFolderEdit => s.cancelFolderEdit
  | .newJob => s.newJob
  | .editJob answer => s.editJob answer

def machine : Machine FolderEditor FolderEvent Unit where
  step s e := (s.step e, ())

end FolderEditor

end TiBackup
