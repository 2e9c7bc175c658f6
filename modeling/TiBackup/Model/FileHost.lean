import TiBackup.Lib.FileSystem
import TiBackup.Model.Reference
import TiBackup.Model.WebServer

/-!
# TiBackup.Model.FileHost

**What is relied on of the file functions.** `PathLaws` and `FileLaws` say what the
modelled code expects of Qt's path functions: canonical paths have no links, dots or
doubled slashes, a folder of a canonical path is canonical too, a new folder is one new
entry, and there is nothing below a regular file.

A host with a file system keeps all of it (`pathLaws_fileHost`, `fileLaws_fileHost`),
whatever the folders, files and links in it are.
-/

namespace TiBackup

open Lib Lib.Path

/-- The path functions of a host, on every file system it can have. -/
structure PathLaws (sys : HostSystem) : Prop where
  /-- A canonical path has no dots, doubled slashes or slash at the end. -/
  canonical : ∀ h p, sys.canonicalPath h p = "" ∨ Canonical (sys.canonicalPath h p)
  /-- It is the canonical path of itself, -/
  self : ∀ h p, sys.canonicalPath h p ≠ "" →
    sys.canonicalPath h (sys.canonicalPath h p) = sys.canonicalPath h p
  /-- and so is the folder it is in. -/
  folder : ∀ h p, Canonical p → sys.canonicalPath h p = p →
    sys.canonicalPath h (parentFolder p) = parentFolder p
  /-- `QFileInfo::absolutePath` takes the last component off. -/
  absolutePath : ∀ p, Canonical p → sys.absolutePath p = parentFolder p
  /-- `QDir::mkdir` creates the folder of that name, or nothing. -/
  makeDir : ∀ h dir name p, Canonical dir → sys.canonicalPath h dir = dir →
    PlainName name.toList → Canonical p → sys.canonicalPath (sys.makeDir h dir name).1 p = p →
    sys.canonicalPath h p = p ∨ p = child dir name.toList

/-- The file functions of the page. -/
structure FileLaws (sys : HostSystem) (files : StaticFiles sys) : Prop where
  /-- A file is known by its canonical path. -/
  isFile_canonicalPath : ∀ h p, sys.canonicalPath h p ≠ "" →
    files.isFile h (sys.canonicalPath h p) = files.isFile h p
  /-- There is nothing below a regular file. -/
  isFile_folder : ∀ h p q, sys.canonicalPath h (p ++ "/" ++ q) ≠ "" →
    files.isFile h (sys.canonicalPath h p) = false
  /-- A path with a leading slash keeps it. -/
  cleanPath : ∀ p, p.toList.head? = some '/' → (files.cleanPath p).toList.head? = some '/'

/-- `QDir::mkdir`, where `isFolder` says which paths are canonical paths of folders: if it
succeeds there is exactly one folder more, and nothing that was there has changed. -/
structure FolderLaws (sys : HostSystem) (isFolder : sys.Host → String → Prop) : Prop where
  canonical : ∀ h p, isFolder h p → Canonical p ∧ sys.canonicalPath h p = p
  created : ∀ h dir name, (sys.makeDir h dir name).2 = true → Canonical dir →
    sys.canonicalPath h dir = dir → PlainName name.toList →
      isFolder h dir ∧ ¬ isFolder h (child dir name.toList) ∧
        ∀ p, isFolder (sys.makeDir h dir name).1 p ↔ isFolder h p ∨ p = child dir name.toList
  kept : ∀ h dir name p, sys.canonicalPath h p ≠ "" →
    sys.canonicalPath (sys.makeDir h dir name).1 p = sys.canonicalPath h p
  mounts : ∀ h dir name,
    sys.partitionByUuid (sys.makeDir h dir name).1 = sys.partitionByUuid h ∧
      sys.isMounted (sys.makeDir h dir name).1 = sys.isMounted h ∧
      sys.mountDir (sys.makeDir h dir name).1 = sys.mountDir h

/-! ### A host with a file system -/

/-- Folders first, then by name. -/
def entryBefore (a b : FileInfo) : Bool :=
  if a.isDir = b.isDir then a.fileName ≤ b.fileName else a.isDir

/-- What a folder lists. -/
def listFolder (fs : FileSystem Bytes) (path : String) (filter : EntryFilter) :
    List FileInfo :=
  match fs.resolve path with
  | none => []
  | some cs =>
    let all := (fs.names cs).map fun name =>
      let full := folderPrefix (render cs) ++ String.ofList name
      let content := fs.readFile full
      { fileName := String.ofList name, isDir := (fs.resolve full).isSome && content.isNone,
        size := (content.map List.length).getD 0, lastModified := 0 : FileInfo }
    (all.filter fun fi => match filter with
      | .dirs => fi.isDir
      | .dirsAndFiles => true
      | .logFiles => !fi.isDir && ".log".toList.isSuffixOf fi.fileName.toList).mergeSort entryBefore

/-- A machine with a file system and nothing else. -/
def fileHost : HostSystem where
  Host := FileSystem Bytes
  version := "0.0"
  backupDetailFolder := "detail"
  isSystemd _ := false
  attachedDisks _ := []
  partitionByUuid _ _ := ⟨"", "", "", ""⟩
  isMounted _ _ := false
  mountDir _ _ := ""
  mountPartition fs _ _ _ := (fs, "")
  umountPartition fs _ := (fs, false)
  canonicalPath fs path := fs.canonicalPath path
  absolutePath := parentFolder
  entryInfoList fs path filter := listFolder fs path filter
  entryExists fs dir name := (fs.resolve (folderPrefix dir ++ name)).isSome
  makeDir fs dir name := fs.mkdir dir name.toList
  readFile fs path := fs.readFile path
  openForWriting fs _ := (fs, false)
  writeAndClose fs _ _ := fs
  confineToScriptsDir _ _ _ := ""
  runLogDate _ := none
  formatDate _ := ""
  securityFromString s := s
  sendMail _ _ _ := ⟨false, "no network"⟩
  pbsAuth _ _ := (0, "")
  fingerprintMatches a b := a = b
  pbsDatastores _ _ := (0, .null)
  pbsDatastoreGroups _ _ _ := (0, .null)
  sshTest _ _ := ⟨false, "", "", "no network"⟩
  sshListDir _ _ _ := ⟨false, "no network", []⟩
  sshMkdir fs _ _ := (fs, ⟨false, "no network"⟩)

/-- `cleanPath` on a path with a leading slash: `.` and empty pieces go, `..` takes the
piece before it along. -/
def cleanRooted (path : String) : String :=
  render <| (components path).foldl (fun cs c =>
    if c = ['.'] then cs else if c = ['.', '.'] then cs.dropLast else cs ++ [c]) []

def fileHostFiles : StaticFiles fileHost where
  cleanPath := cleanRooted
  isFile fs path := FileSystem.isFile fs path

@[simp] theorem canonicalPath_fileHost (fs : fileHost.Host) (p : String) :
    fileHost.canonicalPath fs p = FileSystem.canonicalPath fs p := rfl

@[simp] theorem isFile_fileHostFiles (fs : fileHost.Host) (p : String) :
    fileHostFiles.isFile fs p = FileSystem.isFile fs p := rfl

theorem pathLaws_fileHost : PathLaws fileHost where
  canonical := FileSystem.canonical_canonicalPath
  self fs p hne := by
    simp only [canonicalPath_fileHost] at hne ⊢
    exact FileSystem.canonicalPath_canonicalPath hne
  folder fs p hp hself := by
    simp only [canonicalPath_fileHost] at hself ⊢
    exact FileSystem.canonicalPath_parentFolder hp hself
  absolutePath _ _ := rfl
  makeDir fs dir name p hdir hself hname hp h := by
    simp only [canonicalPath_fileHost] at hself h ⊢
    exact FileSystem.canonicalPath_mkdir hname hdir hself hp h

/-- The canonical paths of the folders of a file system. -/
def isFolderOn (fs : fileHost.Host) (p : String) : Prop :=
  Canonical p ∧ FileSystem.entry fs (components p) = some .folder

theorem folderLaws_fileHost : FolderLaws fileHost isFolderOn where
  canonical fs p h :=
    ⟨h.1, (FileSystem.canonicalPath_self_iff h.1).mpr (FileSystem.real_of_folder h.2)⟩
  created fs dir name hok hdir hself hname := by
    obtain ⟨cs, hresolve, hfolder, hnone, hentry⟩ := FileSystem.mkdir_cases hok
    obtain rfl : components dir = cs := by
      have hreal := (FileSystem.canonicalPath_self_iff hdir).mp hself
      have hrender := FileSystem.resolve_render hreal
      rw [hdir.render_components] at hrender
      exact Option.some.inj (hrender.symm.trans hresolve)
    refine ⟨⟨hdir, hfolder⟩, ?_, ?_⟩
    · rintro ⟨-, hnew⟩
      rw [components_child hdir hname, hnone] at hnew
      cases hnew
    · intro p
      have hp := hentry (components p)
      constructor
      · rintro ⟨hcanonical, hpfolder⟩
        have hentry := hp.symm.trans hpfolder
        split at hentry
        · next hnew =>
          exact .inr (hcanonical.ext (hdir.child hname) (by rw [hnew, components_child hdir hname]))
        · exact .inl ⟨hcanonical, hentry⟩
      · rintro (⟨hcanonical, hold⟩ | rfl)
        · exact ⟨hcanonical, (FileSystem.grows_mkdir fs dir name.toList).entries _ _ hold⟩
        · refine ⟨hdir.child hname, hp.trans ?_⟩
          rw [if_pos (components_child hdir hname)]
  kept fs dir name p hp := (FileSystem.grows_mkdir fs dir name.toList).canonicalPath hp
  mounts _ _ _ := ⟨rfl, rfl, rfl⟩

theorem fileLaws_fileHost : FileLaws fileHost fileHostFiles where
  isFile_canonicalPath fs p hne := by
    simp only [canonicalPath_fileHost, isFile_fileHostFiles] at hne ⊢
    exact FileSystem.isFile_canonicalPath hne
  isFile_folder fs p q hne := by
    simp only [canonicalPath_fileHost, isFile_fileHostFiles] at hne ⊢
    exact FileSystem.not_isFile_of_slash hne
  cleanPath _ _ := FileSystem.head_render _

end TiBackup
