import TiBackup.Files.Confinement

/-!
# TiBackup.Files.NewFolder

**What a new folder is.** POST /api/mkdir resolves the folder to create it in as a listing
does, so a path that is missing or leads outside the base stands for the base. In what it
resolves, one folder is created and nothing else, and unless this is in the root of the
file system, the answer has the canonical path of the new folder: a listing of it shows
this path, with the folder it was created in as its parent (`mkdir_creates`).

In the root the answer has a doubled slash, about which nothing is said here.
-/

namespace TiBackup

open Lib Lib.Path

variable {L : Library}

namespace Api

/-- The folder that a request means: the canonical path of what it asks for, or the base
when it asks for nothing, or for something that is missing or outside. -/
structure Requested (st : State L) (base path parent : String) : Prop where
  empty : path = "" → parent = base
  inside : path ≠ "" → L.system.canonicalPath st.host path ≠ "" →
    Within base (L.system.canonicalPath st.host path) → parent = L.system.canonicalPath st.host path
  missing : L.system.canonicalPath st.host path = "" → parent = base
  outside : ¬ Within base (L.system.canonicalPath st.host path) → parent = base

theorem requested_of_resolveBrowseTarget (laws : PathLaws L.system) {st : State L}
    {root uuid path base target : String}
    (h : resolveBrowseTarget st root uuid path = .ok (base, target)) :
    Requested st base path target := by
  have hbase := (resolved_of_resolveBrowseTarget laws h).canonicalBase
  obtain ⟨b, hb, hempty, hbpath, hne, -⟩ := resolveBrowseTarget_cases h
  have hbase' : base.isEmpty = false := by simpa using hne
  rw [resolveBrowseTarget, hb] at h
  simp only [hempty, hbpath, hbase', Bool.false_eq_true, if_false] at h
  by_cases hpath : path = ""
  · -- the base is asked for, and it is inside itself
    subst hpath
    have htarget : target = base := by
      have hnothing : "".isEmpty = true := rfl
      rw [if_pos hnothing, hbpath] at h
      split at h
      · exact (Prod.mk.inj (Except.ok.inj h)).2.symm
      · exact (Prod.mk.inj (Except.ok.inj h)).2.symm
    exact ⟨fun _ => htarget, fun hne => absurd rfl hne, fun _ => htarget, fun _ => htarget⟩
  · have hpath' : path.isEmpty = false := by simpa using hpath
    simp only [hpath', Bool.false_eq_true, if_false] at h
    split at h
    · next hinside =>
      obtain ⟨-, rfl⟩ := Prod.mk.inj (Except.ok.inj h)
      rw [Bool.and_eq_true] at hinside
      have hcanonical : Canonical (L.system.canonicalPath st.host path) :=
        (laws.canonical st.host path).resolve_left (by simpa using hinside.1)
      have hwithin := (insideBase_iff hbase hcanonical).mp hinside.2
      exact ⟨fun hempty => absurd hempty hpath, fun _ _ _ => rfl,
        fun hmissing => absurd hmissing (by simpa using hinside.1),
        fun houtside => absurd hwithin houtside⟩
    · next houtside =>
      obtain ⟨-, rfl⟩ := Prod.mk.inj (Except.ok.inj h)
      refine ⟨fun _ => rfl, ?_, fun _ => rfl, fun _ => rfl⟩
      intro _ hreal hwithin
      have hcanonical : Canonical (L.system.canonicalPath st.host path) :=
        (laws.canonical st.host path).resolve_left hreal
      have hreal' : (L.system.canonicalPath st.host path).isEmpty = false := by simpa using hreal
      rw [hreal', (insideBase_iff hbase hcanonical).mpr hwithin] at houtside
      exact absurd rfl houtside

/-- The name a request has for a new folder. -/
def askedName (q : Request) : String := ((parseBody q).get "name").toString

/-- What a request for a new folder did that was answered ok. -/
theorem mkdir_ok {st : State L} {q : Request} {t : Moment} {r : Response}
    (h : (mkdir q t st).2 = .now r) (hok : r.status = .ok) :
    ∃ base parent, mkdirTarget st q = .ok (base, parent) ∧ validIdentifier (askedName q) = true ∧
      (L.system.makeDir st.host parent (askedName q)).2 = true ∧
      (mkdir q t st).1.host = (L.system.makeDir st.host parent (askedName q)).1 ∧
      (mkdir q t st).1.conf = st.conf ∧
      r = jsonResp (.obj [("ok", .bool true), ("path", .str (parent ++ "/" ++ askedName q))]) := by
  rw [mkdir] at h ⊢
  rcases guarded_cases st q t .now _ with ⟨-, hrun⟩ | ⟨e, he, hrun⟩
  · rw [hrun] at h ⊢
    dsimp only at h ⊢
    split at h
    · obtain rfl := Reply.now.inj h
      cases hok
    · next hname =>
      have haccepted : validIdentifier (askedName q) = true := by
        rwa [Bool.not_eq_true', Bool.not_eq_false] at hname
      rw [if_neg hname]
      have htarget : resolveBrowseTarget (st.validated t.now q) ((parseBody q).get "root").toString
          ((parseBody q).get "uuid").toString ((parseBody q).get "path").toString =
            mkdirTarget st q := rfl
      rw [htarget] at h ⊢
      cases hresolved : mkdirTarget st q with
      | error e =>
        rw [hresolved] at h
        obtain rfl := Reply.now.inj h
        exact absurd hok (status_of_resolveBrowseTarget_error hresolved)
      | ok target =>
        obtain ⟨base, parent⟩ := target
        rw [hresolved] at h
        dsimp only at h ⊢
        split at h
        · obtain rfl := Reply.now.inj h
          cases hok
        · next hexists =>
          rw [if_neg hexists]
          split at h
          · obtain rfl := Reply.now.inj h
            cases hok
          · next hmade =>
            rw [if_neg hmade]
            rw [Bool.not_eq_true', Bool.not_eq_false] at hmade
            exact ⟨base, parent, rfl, haccepted, hmade, rfl, rfl, (Reply.now.inj h).symm⟩
  · rw [hrun] at h
    obtain rfl := Reply.now.inj h
    rcases he with rfl | rfl
    · cases hok
    · cases hok

/-- When a request for a new folder is answered ok. -/
theorem mkdir_of_makeDir {st : State L} {q : Request} {t : Moment} {base parent : String}
    (hverified : CsrfVerified st t.now q) (hname : validIdentifier (askedName q) = true)
    (htarget : mkdirTarget st q = .ok (base, parent))
    (hnew : L.system.entryExists st.host parent (askedName q) = false)
    (hmade : (L.system.makeDir st.host parent (askedName q)).2 = true) :
    mkdir q t st =
      ({ st.validated t.now q with host := (L.system.makeDir st.host parent (askedName q)).1 },
        .now (jsonResp (.obj [("ok", .bool true),
          ("path", .str (parent ++ "/" ++ askedName q))]))) := by
  have htarget' : resolveBrowseTarget (st.validated t.now q) ((parseBody q).get "root").toString
      ((parseBody q).get "uuid").toString ((parseBody q).get "path").toString =
        .ok (base, parent) := htarget
  rw [mkdir, withCsrf_of_verified hverified]
  dsimp only
  rw [htarget']
  have hname' : (!validIdentifier ((parseBody q).get "name").toString) = false := by
    rw [show ((parseBody q).get "name").toString = askedName q from rfl, hname]
    rfl
  have hnew' : L.system.entryExists (st.validated t.now q).host parent
      ((parseBody q).get "name").toString = false := hnew
  have hmade' : (L.system.makeDir (st.validated t.now q).host parent
      ((parseBody q).get "name").toString).2 = true := hmade
  simp only [hname', hnew', hmade', Bool.false_eq_true, if_false, Bool.not_true]
  rfl

/-- In a folder that is not the root, the path that is put together is the canonical one. -/
theorem append_slash_eq_child {parent name : String} (hparent : Canonical parent)
    (hroot : parent ≠ "/") : parent ++ "/" ++ name = child parent name.toList := by
  have hprefix : folderPrefix parent = parent ++ "/" := if_neg hroot
  refine String.toList_injective ?_
  rw [← hprefix, String.toList_append, toList_folderPrefix hparent, child, render,
    if_neg (by simp), String.toList_ofList, slashed_append, List.append_assoc]
  rw [slashed_cons]
  simp [slashed]

/-- The new folder is resolved to itself, from the same root. -/
theorem resolveBrowseTarget_new {isFolder : L.system.Host → String → Prop}
    (laws : PathLaws L.system) (folders : FolderLaws L.system isFolder) {st st' : State L}
    {root uuid path base parent name : String}
    (htarget : resolveBrowseTarget st root uuid path = .ok (base, parent))
    (hname : validIdentifier name = true) (hmade : (L.system.makeDir st.host parent name).2 = true)
    (hhost : st'.host = (L.system.makeDir st.host parent name).1) (hconf : st'.conf = st.conf) :
    resolveBrowseTarget st' root uuid (child parent name.toList) =
      .ok (base, child parent name.toList) := by
  have hplain := plainName_of_validIdentifier hname
  have hres := resolved_of_resolveBrowseTarget laws htarget
  obtain ⟨b, hb, hempty, hbpath, hne, -⟩ := resolveBrowseTarget_cases htarget
  obtain ⟨-, -, honly⟩ := folders.created _ _ _ hmade hres.canonicalTarget hres.realTarget hplain
  obtain ⟨hcanonical, hself⟩ := folders.canonical _ _ ((honly _).mpr (.inr rfl))
  obtain ⟨hparts, hmounted, hdir⟩ := folders.mounts st.host parent name
  have hb' : browseBase st' root uuid = .ok b := by
    rw [← hb]
    simp only [browseBase, State.getValue, hhost, hconf, hparts, hmounted, hdir]
  have hbase' : L.system.canonicalPath st'.host b = base := by
    rw [hhost, folders.kept _ _ _ _ (by rwa [hbpath]), hbpath]
  have hself' : L.system.canonicalPath st'.host (child parent name.toList) =
      child parent name.toList := by
    rw [hhost]
    exact hself
  have hinside := (insideBase_iff hres.canonicalBase hcanonical).mpr
    (hres.within.child_below hres.canonicalTarget hplain).1
  have hbaseEmpty : base.isEmpty = false := by simpa using hne
  have hnewEmpty : (child parent name.toList).isEmpty = false := by
    simpa using hcanonical.ne_empty
  rw [resolveBrowseTarget, hb']
  simp only [hempty, hbase', hbaseEmpty, hnewEmpty, hself', hinside, Bool.false_eq_true, if_false,
    Bool.not_false, Bool.and_self, if_true]

end Api

/-- A folder was created as it was asked for: one more folder, in the one that the request
means, and outside the root a path that leads to it and back. -/
structure FolderCreated (isFolder : L.system.Host → String → Prop) (st : State L) (q : Request)
    (st' : State L) (r : Response) (base parent new : String) : Prop where
  ofRoot : ∃ b, Api.browseBase st ((parseBody q).get "root").toString
    ((parseBody q).get "uuid").toString = .ok b ∧ L.system.canonicalPath st.host b = base ∧ base ≠ ""
  requested : Api.Requested st base ((parseBody q).get "path").toString parent
  inFolder : isFolder st.host parent ∧ new = child parent (Api.askedName q).toList
  isNew : ¬ isFolder st.host new
  only : ∀ p, isFolder st'.host p ↔ isFolder st.host p ∨ p = new
  answer : parent ≠ "/" → r.body.toObject.get "path" = .str new ∧
    L.system.canonicalPath st'.host new = new
  /-- As long as the files and the configuration stay so, every listing of it shows it. -/
  listed : ∀ (st'' : State L) (q' : Request) (t' : Moment) (s : Session),
    st''.host = st'.host → st''.conf = st'.conf → LiveSession st'' t'.now q' s →
    queryItemValue q' "root" = ((parseBody q).get "root").toString →
    queryItemValue q' "uuid" = ((parseBody q).get "uuid").toString →
    queryItemValue q' "path" = new → Api.Lists st'' q' t' base new parent

/-- **A new folder is where it should be**, on every host that keeps the laws of the path
functions and of `mkdir`. -/
theorem mkdir_creates {isFolder : L.system.Host → String → Prop} (laws : PathLaws L.system)
    (folders : FolderLaws L.system isFolder) {st : State L} {q : Request} {t : Moment} {r : Response}
    (h : (Api.mkdir q t st).2 = .now r) (hok : r.status = .ok) :
    ∃ base parent new, FolderCreated isFolder st q (Api.mkdir q t st).1 r base parent new := by
  obtain ⟨base, parent, htarget, hname, hmade, hhost, hconf, hr⟩ := Api.mkdir_ok h hok
  have hplain := plainName_of_validIdentifier hname
  have hres := Api.resolved_of_resolveBrowseTarget laws htarget
  obtain ⟨hfolder, hnew, honly⟩ :=
    folders.created _ _ _ hmade hres.canonicalTarget hres.realTarget hplain
  obtain ⟨b, hb, -, hbpath, hne, -⟩ := Api.resolveBrowseTarget_cases htarget
  have hchild := folders.canonical _ _ ((honly _).mpr (.inr rfl))
  refine ⟨base, parent, child parent (Api.askedName q).toList, ?_⟩
  constructor
  · exact ⟨b, hb, hbpath, hne⟩
  · exact Api.requested_of_resolveBrowseTarget laws htarget
  · exact ⟨hfolder, rfl⟩
  · exact hnew
  · rw [hhost]
    exact honly
  · intro hroot
    rw [hr, ← Api.append_slash_eq_child hres.canonicalTarget hroot]
    refine ⟨rfl, ?_⟩
    rw [hhost, Api.append_slash_eq_child hres.canonicalTarget hroot]
    exact hchild.2
  · intro st'' q' t' s hhost'' hconf'' hlive hroot huuid hpath
    have hlisted := Api.resolveBrowseTarget_new laws folders htarget hname hmade
      (hhost''.trans hhost) (hconf''.trans hconf)
    refine Api.lists_iff.mpr ⟨⟨s, hlive⟩, ?_, ?_⟩
    · rw [Api.target, hroot, huuid, hpath, hlisted]
    · have hbelow := hres.within.child_below hres.canonicalTarget hplain
      have hne' : child parent (Api.askedName q).toList ≠ base := by
        intro heq
        exact hbelow.2 (congrArg components heq).symm
      rw [Api.browseParent_eq laws hres.canonicalBase hchild.1 hbelow.1, if_neg hne', parentFolder,
        components_child hres.canonicalTarget hplain, List.dropLast_concat,
        hres.canonicalTarget.render_components]

/-- A request for a folder of this name below the scripts folder. -/
def folderRequest (path name : String) : Request :=
  Reference.request (.obj [("root", .str "script"), ("path", .str path), ("name", .str name)])

theorem mkdir_demo (path : String) (hpath : Api.mkdirTarget demoState (folderRequest path "new") =
    .ok ("/srv/scripts", "/srv/scripts")) :
    Api.mkdir (folderRequest path "new") (Reference.moment "") demoState =
      ({ demoState.validated 1 (folderRequest path "new") with
          host := (fileHost.makeDir demoFiles "/srv/scripts" "new").1 },
        .now (jsonResp (.obj [("ok", .bool true), ("path", .str "/srv/scripts/new")]))) := by
  have hname : Api.askedName (folderRequest path "new") = "new" := rfl
  have hverified : CsrfVerified demoState 1 (folderRequest path "new") :=
    Reference.csrfVerified rfl _
  have hmkdir := Api.mkdir_of_makeDir (t := Reference.moment "") hverified
    (by rw [hname]; decide +kernel) hpath (by rw [hname]; decide +kernel)
    (by rw [hname]; decide +kernel)
  rwa [hname] at hmkdir

theorem mkdirTarget_demo {path : String}
    (h : (Api.mkdirTarget demoState (folderRequest path "new")).toOption =
      some ("/srv/scripts", "/srv/scripts")) :
    Api.mkdirTarget demoState (folderRequest path "new") = .ok ("/srv/scripts", "/srv/scripts") := by
  cases htarget : Api.mkdirTarget demoState (folderRequest path "new") with
  | error e =>
    rw [htarget] at h
    cases h
  | ok target =>
    rw [htarget] at h
    rw [Option.some.inj h]

/-- A folder in the scripts folder. -/
theorem mkdir_creates_script : ∃ base parent new,
    FolderCreated isFolderOn demoState (folderRequest "" "new")
      (Api.mkdir (folderRequest "" "new") (Reference.moment "") demoState).1
      (jsonResp (.obj [("ok", .bool true), ("path", .str "/srv/scripts/new")])) base parent new :=
  mkdir_creates pathLaws_fileHost folderLaws_fileHost
    (congrArg Prod.snd (mkdir_demo "" (mkdirTarget_demo (by decide +kernel)))) rfl

/-- **A path that is missing stands for the base**, and the folder is created there. -/
theorem mkdir_missing : ¬ ∀ (L : Library) (isFolder : L.system.Host → String → Prop),
    PathLaws L.system → FolderLaws L.system isFolder →
      ∀ (st : State L) (q : Request) (t : Moment) (r : Response), (Api.mkdir q t st).2 = .now r →
        L.system.canonicalPath st.host ((parseBody q).get "path").toString = "" →
          ∀ p, isFolder (Api.mkdir q t st).1.host p → isFolder st.host p := by
  intro hall
  have hmkdir := mkdir_demo "/srv/missing" (mkdirTarget_demo (by decide +kernel))
  have hold := hall fileLibrary isFolderOn pathLaws_fileHost folderLaws_fileHost demoState
    (folderRequest "/srv/missing" "new") (Reference.moment "") _ (congrArg Prod.snd hmkdir)
    (by decide +kernel) "/srv/scripts/new"
  rw [hmkdir] at hold
  have hcanonical : Canonical "/srv/scripts/new" :=
    ⟨["srv".toList, "scripts".toList, "new".toList], by decide, by decide⟩
  have hnew : FileSystem.entry (FileSystem.mkdir demoFiles "/srv/scripts" "new".toList).1
      (components "/srv/scripts/new") = some .folder := rfl
  have hnone : FileSystem.entry demoFiles (components "/srv/scripts/new") = none := rfl
  obtain ⟨-, hfolder⟩ := hold ⟨hcanonical, hnew⟩
  cases hnone.symm.trans hfolder

end TiBackup
