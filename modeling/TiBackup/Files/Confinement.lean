import TiBackup.Auth.Checks
import TiBackup.Model.FileHost

/-!
# TiBackup.Files.Confinement

**Nothing is reached outside the roots.** Three handlers decide whether a path is inside
a folder by comparing the beginning of two strings. On canonical paths this is the same
as comparing components (`insideBase_iff`), so a listing, a new folder and a file of the
web page are where they should be, for every file system that keeps `PathLaws` and
`FileLaws` and for whatever a client asks (`paths_confined`).

The parent a listing gives leads up to its base: `climb` follows it from request to
request.
-/

namespace TiBackup

open Lib Lib.Path

variable {L : Library}

/-- A name that is accepted is a plain one. -/
theorem plainName_of_validIdentifier {s : String} (h : validIdentifier s = true) :
    PlainName s.toList := by
  have hchars := chars_of_validIdentifier h
  rw [validIdentifier] at h
  split at h
  · cases h
  · next hsize =>
    split at h
    · cases h
    · rw [Bool.or_eq_true, not_or, String.isEmpty_iff] at hsize
      rw [Bool.and_eq_true, decide_eq_true_eq, decide_eq_true_eq] at h
      refine ⟨fun hnil => hsize.1 ?_, ?_, fun hdot => h.1 ?_, fun hdot => h.2 ?_⟩
      · exact String.toList_injective hnil
      · intro hslash
        rcases hchars _ hslash with hchar | hchar
        · exact absurd hchar (by decide)
        · exact absurd hchar (by decide)
      · exact String.toList_injective hdot
      · exact String.toList_injective hdot

namespace Api

/-! ### Which paths are inside -/

theorem baseSep_eq_folderPrefix (base : String) : baseSep base = folderPrefix base := rfl

/-- The string test decides whether a canonical path is at or below a canonical base. -/
theorem insideBase_iff {base path : String} (hbase : Canonical base) (hpath : Canonical path) :
    insideBase base path = true ↔ Within base path := by
  rw [hbase.within_iff_prefix hpath, insideBase, Bool.or_eq_true, decide_eq_true_eq,
    List.isPrefixOf_iff_prefix, baseSep_eq_folderPrefix]

/-- What a resolved browse target is. -/
structure Resolved (st : State L) (base target : String) : Prop where
  canonicalBase : Canonical base
  canonicalTarget : Canonical target
  realBase : L.system.canonicalPath st.host base = base
  realTarget : L.system.canonicalPath st.host target = target
  within : Within base target

/-- How a target is resolved: to the base, or to a path that passed the test. -/
theorem resolveBrowseTarget_cases {st : State L} {root uuid path base target : String}
    (h : resolveBrowseTarget st root uuid path = .ok (base, target)) :
    ∃ b, browseBase st root uuid = .ok b ∧ b.isEmpty = false ∧
      L.system.canonicalPath st.host b = base ∧ base ≠ "" ∧
      (target = base ∨ ∃ asked, L.system.canonicalPath st.host asked = target ∧ target ≠ "" ∧
        insideBase base target = true) := by
  rw [resolveBrowseTarget] at h
  split at h
  · cases h
  · next b hb =>
    refine ⟨b, hb, ?_⟩
    generalize (if path.isEmpty then b else path) = asked at h
    split at h
    · cases h
    · next hempty =>
      dsimp only at h
      split at h
      · cases h
      · next hbase =>
        have hne : L.system.canonicalPath st.host b ≠ "" := by simpa using hbase
        split at h
        · next hinside =>
          obtain ⟨rfl, rfl⟩ := Prod.mk.inj (Except.ok.inj h)
          rw [Bool.and_eq_true] at hinside
          exact ⟨by simpa using hempty, rfl, hne,
            .inr ⟨asked, rfl, by simpa using hinside.1, hinside.2⟩⟩
        · obtain ⟨rfl, rfl⟩ := Prod.mk.inj (Except.ok.inj h)
          exact ⟨by simpa using hempty, rfl, hne, .inl rfl⟩

theorem resolved_of_resolveBrowseTarget (laws : PathLaws L.system) {st : State L}
    {root uuid path base target : String}
    (h : resolveBrowseTarget st root uuid path = .ok (base, target)) : Resolved st base target := by
  obtain ⟨b, -, -, hb, hne, htarget⟩ := resolveBrowseTarget_cases h
  have hcanonical : Canonical base := by
    rcases laws.canonical st.host b with hempty | hcanonical
    · exact absurd (hb.symm.trans hempty) hne
    · rwa [hb] at hcanonical
  have hself : L.system.canonicalPath st.host base = base := by
    have hself := laws.self st.host b (by rwa [hb])
    rwa [hb] at hself
  rcases htarget with rfl | ⟨asked, hasked, hne', hinside⟩
  · exact ⟨hcanonical, hcanonical, hself, hself, .refl _⟩
  · have hcanonical' : Canonical target := by
      rcases laws.canonical st.host asked with hempty | hcanonical
      · exact absurd (hasked.symm.trans hempty) hne'
      · rwa [hasked] at hcanonical
    have hself' := laws.self st.host asked (by rwa [hasked])
    rw [hasked] at hself'
    exact ⟨hcanonical, hcanonical', hself, hself',
      (insideBase_iff hcanonical hcanonical').mp hinside⟩

/-- A canonical path inside the base is resolved to itself. -/
theorem resolveBrowseTarget_of_within {st : State L} {root uuid path base target p : String}
    (h : resolveBrowseTarget st root uuid path = .ok (base, target)) (hbase : Canonical base)
    (hp : Canonical p) (hself : L.system.canonicalPath st.host p = p) (hwithin : Within base p) :
    resolveBrowseTarget st root uuid p = .ok (base, p) := by
  obtain ⟨b, hb, hempty, hbpath, hne, -⟩ := resolveBrowseTarget_cases h
  have hpempty : p.isEmpty = false := by simpa using hp.ne_empty
  have hbase' : base.isEmpty = false := by simpa using hne
  rw [resolveBrowseTarget, hb]
  simp only [hempty, hbpath, hbase', hpempty, hself, (insideBase_iff hbase hp).mpr hwithin,
    Bool.false_eq_true, if_false, Bool.not_false, Bool.and_self, if_true]

/-- Inside the base, the clamp of the parent changes nothing. -/
theorem browseParent_eq (laws : PathLaws L.system) {base target : String} (hbase : Canonical base)
    (htarget : Canonical target) (h : Within base target) :
    browseParent L base target = if target = base then base else parentFolder target := by
  by_cases heq : target = base
  · rw [if_pos heq, browseParent, if_pos heq, ite_self]
  · have hbelow : Below base target := ⟨h, fun hcs => heq (htarget.ext hbase hcs.symm)⟩
    rw [if_neg heq, browseParent, if_neg heq, laws.absolutePath target htarget,
      if_pos ((insideBase_iff hbase htarget.parentFolder).mpr (hbelow.parentFolder htarget))]

/-! ### Listings -/

/-- A request is answered with a listing of this folder. -/
def Lists (st : State L) (req : Request) (m : Moment) (base path parent : String) : Prop :=
  ∃ entries, (browse req m st).2 = .now (jsonResp (.obj
    [("base", .str base), ("path", .str path), ("parent", .str parent), ("entries", .arr entries)]))

/-- Errors of the target are no listings. -/
theorem status_of_resolveBrowseTarget_error {st : State L} {root uuid path : String} {e : Response}
    (h : resolveBrowseTarget st root uuid path = .error e) : e.status ≠ .ok := by
  have hbase : ∀ {e}, browseBase st root uuid = .error e → e.status ≠ .ok := by
    intro e he
    rw [browseBase] at he
    split at he
    · cases he
    · split at he
      · split at he
        · obtain rfl := Except.error.inj he
          exact fun h => by cases h
        · dsimp only at he
          split at he
          · obtain rfl := Except.error.inj he
            exact fun h => by cases h
          · cases he
      · cases he
  rw [resolveBrowseTarget] at h
  split at h
  · next e' he' =>
    obtain rfl := Except.error.inj h
    exact hbase he'
  · generalize (if path.isEmpty then _ else path) = asked at h
    split at h
    · obtain rfl := Except.error.inj h
      exact fun h => by cases h
    · dsimp only at h
      split at h
      · obtain rfl := Except.error.inj h
        exact fun h => by cases h
      · split at h
        · cases h
        · cases h

/-- What a request for a listing resolves. -/
def target (st : State L) (req : Request) : Except Response (String × String) :=
  resolveBrowseTarget st (queryItemValue req "root") (queryItemValue req "uuid")
    (queryItemValue req "path")

/-- The answer to a request whose target is resolved. -/
def listing (st : State L) (req : Request) (base path : String) : Response :=
  jsonResp <| .obj [("base", .str base), ("path", .str path),
    ("parent", .str (browseParent L base path)),
    ("entries", .arr ((L.system.entryInfoList st.host path
      (if queryItemValue req "files" = "1" then .dirsAndFiles else .dirs)).map fun fi =>
        entryToJson { fi with size := if fi.isDir then 0 else fi.size }))]

/-- A live session gets the listing, or the error of the target. -/
theorem browse_of_live {st : State L} {req : Request} {m : Moment} {s : Session}
    (h : LiveSession st m.now req s) :
    (browse req m st).2 = .now (match target st req with
      | .error e => e
      | .ok (base, path) => listing st req base path) := by
  rw [browse, withAuth_of_live h, reads]
  dsimp only
  have htarget : resolveBrowseTarget (st.validated m.now req) (queryItemValue req "root")
      (queryItemValue req "uuid") (queryItemValue req "path") = target st req := rfl
  rw [htarget]
  rcases target st req with e | ⟨base, path⟩
  · rfl
  · rfl

theorem browse_of_not_live {st : State L} {req : Request} {m : Moment}
    (h : ¬∃ s, LiveSession st m.now req s) : (browse req m st).2 = .now unauthorized := by
  rw [browse, withAuth_of_not_live (not_exists.mp h)]

/-- A listing is the answer to a live session whose target resolves. -/
theorem lists_iff {st : State L} {req : Request} {m : Moment} {base path parent : String} :
    Lists st req m base path parent ↔ (∃ s, LiveSession st m.now req s) ∧
      target st req = .ok (base, path) ∧ parent = browseParent L base path := by
  constructor
  · rintro ⟨entries, h⟩
    by_cases hlive : ∃ s, LiveSession st m.now req s
    · refine ⟨hlive, ?_⟩
      obtain ⟨s, hs⟩ := hlive
      rw [browse_of_live hs] at h
      have hbody := congrArg Response.body (Reply.now.inj h)
      have hstatus := congrArg Response.status (Reply.now.inj h)
      cases htarget : target st req with
      | error e =>
        rw [htarget] at hstatus
        exact absurd hstatus (status_of_resolveBrowseTarget_error htarget)
      | ok r =>
        rw [htarget] at hbody
        injection hbody with hfields
        simp only [List.cons.injEq, Prod.mk.injEq, Json.str.injEq, true_and] at hfields
        obtain ⟨hbase, hpath, hparent, -⟩ := hfields
        exact ⟨by rw [← hbase, ← hpath], by rw [← hparent, hbase, hpath]⟩
    · rw [browse_of_not_live hlive] at h
      have hstatus := congrArg Response.status (Reply.now.inj h)
      cases hstatus
  -- A live session whose target resolves gets it.
  · rintro ⟨⟨s, hs⟩, htarget, rfl⟩
    rw [Lists, browse_of_live hs, htarget]
    exact ⟨_, rfl⟩

/-- Every answer that is no error is a listing. -/
theorem lists_of_ok {st : State L} {req : Request} {m : Moment} {r : Response}
    (h : (browse req m st).2 = .now r) (hok : r.status = .ok) :
    ∃ base path parent, Lists st req m base path parent := by
  by_cases hlive : ∃ s, LiveSession st m.now req s
  · obtain ⟨s, hs⟩ := hlive
    cases htarget : target st req with
    | error e =>
      rw [browse_of_live hs, htarget] at h
      obtain rfl := Reply.now.inj h
      exact absurd hok (status_of_resolveBrowseTarget_error htarget)
    | ok r => exact ⟨r.1, r.2, _, lists_iff.mpr ⟨⟨s, hs⟩, htarget, rfl⟩⟩
  · rw [browse_of_not_live hlive] at h
    obtain rfl := Reply.now.inj h
    cases hok

/-! ### Following the parents -/

/-- Requests for listings, each for the parent that the one before was answered with. The
files and the configuration are the same for all of them, the sessions are live. -/
structure Climb (sts : Nat → State L) (reqs : Nat → Request) (ms : Nat → Moment) : Prop where
  host : ∀ n, (sts n).host = (sts 0).host
  conf : ∀ n, (sts n).conf = (sts 0).conf
  live : ∀ n, ∃ s, LiveSession (sts n) (ms n).now (reqs n) s
  root : ∀ n, queryItemValue (reqs n) "root" = queryItemValue (reqs 0) "root"
  uuid : ∀ n, queryItemValue (reqs n) "uuid" = queryItemValue (reqs 0) "uuid"
  follows : ∀ n base path parent, Lists (sts n) (reqs n) (ms n) base path parent →
    queryItemValue (reqs (n + 1)) "path" = parent

/-- Resolving looks at the files and the configuration only. -/
theorem resolveBrowseTarget_congr {st st' : State L} (hhost : st'.host = st.host)
    (hconf : st'.conf = st.conf) (root uuid path : String) :
    resolveBrowseTarget st' root uuid path = resolveBrowseTarget st root uuid path := by
  simp only [resolveBrowseTarget, browseBase, State.getValue, hhost, hconf]

variable {sts : Nat → State L} {reqs : Nat → Request} {ms : Nat → Moment}

/-- One step up: the next request lists the parent. -/
theorem Climb.step (laws : PathLaws L.system) (h : Climb sts reqs ms) {n : Nat}
    {base path parent : String} (hn : Lists (sts n) (reqs n) (ms n) base path parent) :
    ∃ parent', Lists (sts (n + 1)) (reqs (n + 1)) (ms (n + 1)) base parent parent' := by
  have hpath := h.follows n base path parent hn
  obtain ⟨-, htarget, rfl⟩ := lists_iff.mp hn
  have hres := resolved_of_resolveBrowseTarget laws htarget
  rw [browseParent_eq laws hres.canonicalBase hres.canonicalTarget hres.within] at hpath ⊢
  refine ⟨_, lists_iff.mpr ⟨h.live (n + 1), ?_, rfl⟩⟩
  have hsame : resolveBrowseTarget (sts (n + 1)) (queryItemValue (reqs n) "root")
      (queryItemValue (reqs n) "uuid") (queryItemValue (reqs n) "path") = .ok (base, path) := by
    rw [← htarget]
    exact resolveBrowseTarget_congr ((h.host _).trans (h.host n).symm)
      ((h.conf _).trans (h.conf n).symm) _ _ _
  have hres' := resolved_of_resolveBrowseTarget laws hsame
  rw [target, h.root (n + 1), h.uuid (n + 1), ← h.root n, ← h.uuid n, hpath]
  split
  · exact resolveBrowseTarget_of_within hsame hres.canonicalBase hres.canonicalBase
      hres'.realBase (.refl _)
  · next hne =>
    have hbelow : Below base path :=
      ⟨hres.within, fun hcs => hne (hres.canonicalTarget.ext hres.canonicalBase hcs.symm)⟩
    exact resolveBrowseTarget_of_within hsame hres.canonicalBase hres.canonicalTarget.parentFolder
      (laws.folder _ _ hres.canonicalTarget hres'.realTarget)
      (hbelow.parentFolder hres.canonicalTarget)

/-- After as many steps as the path is deeper than the base, the base is listed. -/
theorem Climb.reaches_base (laws : PathLaws L.system) (h : Climb sts reqs ms)
    {base path parent : String} (h0 : Lists (sts 0) (reqs 0) (ms 0) base path parent) :
    ∃ n, Lists (sts n) (reqs n) (ms n) base base base := by
  -- Each step takes a component off, until the path is as short as the base.
  have hstep : ∀ n, ∃ p q, Lists (sts n) (reqs n) (ms n) base p q ∧
      (components p).length ≤ max (components base).length ((components path).length - n) := by
    intro n
    induction n with
    | zero => exact ⟨path, parent, h0, by omega⟩
    | succ n ih =>
      obtain ⟨p, q, hlists, hlength⟩ := ih
      obtain ⟨q', hnext⟩ := h.step laws hlists
      refine ⟨q, q', hnext, ?_⟩
      obtain ⟨-, htarget, rfl⟩ := lists_iff.mp hlists
      have hres := resolved_of_resolveBrowseTarget laws htarget
      rw [browseParent_eq laws hres.canonicalBase hres.canonicalTarget hres.within]
      split
      · omega
      · rw [components_parentFolder hres.canonicalTarget, List.length_dropLast]
        omega
  obtain ⟨p, q, hlists, hlength⟩ := hstep (components path).length
  obtain ⟨hlive, htarget, rfl⟩ := lists_iff.mp hlists
  have hres := resolved_of_resolveBrowseTarget laws htarget
  have hbase : p = base := by
    refine hres.canonicalTarget.ext hres.canonicalBase ?_
    exact (hres.within.eq_of_length_le (by omega)).symm
  subst hbase
  refine ⟨_, lists_iff.mpr ⟨hlive, htarget, ?_⟩⟩
  rw [browseParent_eq laws hres.canonicalBase hres.canonicalTarget hres.within, if_pos rfl]

/-! ### New folders -/

/-- What a request for a new folder resolves. -/
def mkdirTarget (st : State L) (req : Request) : Except Response (String × String) :=
  resolveBrowseTarget st ((parseBody req).get "root").toString ((parseBody req).get "uuid").toString
    ((parseBody req).get "path").toString

/-- The files a request for a new folder leaves behind are those that were there, or those
that `QDir::mkdir` leaves behind in the target. -/
theorem host_mkdir (st : State L) (req : Request) (m : Moment) :
    (mkdir req m st).1.host = st.host ∨ ∃ base path,
      mkdirTarget st req = .ok (base, path) ∧
      validIdentifier ((parseBody req).get "name").toString = true ∧
      (mkdir req m st).1.host =
        (L.system.makeDir st.host path ((parseBody req).get "name").toString).1 := by
  rw [mkdir]
  rcases guarded_cases st req m .now _ with ⟨-, hrun⟩ | ⟨e, -, hrun⟩
  · rw [hrun]
    dsimp only
    split
    · exact .inl rfl
    · next hname =>
      rw [Bool.not_eq_true', Bool.not_eq_false] at hname
      split
      · exact .inl rfl
      · next base path htarget =>
        split
        · exact .inl rfl
        · refine .inr ⟨base, path, htarget, hname, ?_⟩
          split
          · rfl
          · rfl
  · rw [hrun]
    exact .inl rfl

end Api

/-! ### Files of the web page -/

/-- An empty path, or one that begins with a slash. -/
def Rooted (path : String) : Prop := path = "" ∨ path.toList.head? = some '/'

/-- A regular file at or below the docroot, with its content; the file of a rooted path is
below it. -/
structure Served {sys : HostSystem} (ws : WebServer) (files : StaticFiles sys) (host : sys.Host)
    (path file : String) (content : Bytes) : Prop where
  regular : files.isFile host file = true
  content : sys.readFile host file = some content
  canonical : Canonical file ∧ sys.canonicalPath host file = file
  within : Within (sys.canonicalPath host ws.docroot) file
  below : Rooted path → Below (sys.canonicalPath host ws.docroot) file

/-- The path under the docroot has a slash behind the docroot. -/
theorem staticPath_eq {sys : HostSystem} {files : StaticFiles sys} (laws : FileLaws sys files)
    (ws : WebServer) {path : String} (h : Rooted path) :
    ∃ rest, staticPath ws files path = ws.docroot ++ "/" ++ rest := by
  have hhead : (files.cleanPath (if path.isEmpty || path = "/" then "/index.html" else path)
      ).toList.head? = some '/' := by
    refine laws.cleanPath _ ?_
    split
    · rfl
    · next hne =>
      rw [Bool.or_eq_true, not_or, String.isEmpty_iff] at hne
      exact h.resolve_left hne.1
  generalize hrel : files.cleanPath (if path.isEmpty || path = "/" then "/index.html" else path) =
    rel at hhead
  rcases hlist : rel.toList with - | ⟨c, rest⟩
  · rw [hlist] at hhead
    cases hhead
  · rw [hlist, List.head?_cons, Option.some.injEq] at hhead
    refine ⟨String.ofList rest, String.toList_injective ?_⟩
    rw [staticPath, hrel, String.toList_append, String.toList_append, String.toList_append, hlist,
      hhead, String.toList_ofList, List.append_assoc]
    simp

theorem canonicalFilePath_of_ne {sys : HostSystem} {host : sys.Host} {p : String}
    (h : canonicalFilePath sys host p ≠ "") :
    canonicalFilePath sys host p = sys.canonicalPath host p := by
  rw [canonicalFilePath] at h ⊢
  split
  · next hempty =>
    rw [if_pos hempty] at h
    exact absurd rfl h
  · rfl

/-- A file that passes the checks is where it should be. -/
theorem served_of_checks {sys : HostSystem} {files : StaticFiles sys} (laws : PathLaws sys)
    (filelaws : FileLaws sys files) {ws : WebServer} {host : sys.Host} {path : String}
    {content : Bytes} (hdoc : sys.canonicalPath host ws.docroot ≠ "")
    (hfull : sys.canonicalPath host (staticPath ws files path) ≠ "")
    (hinside : sys.canonicalPath host (staticPath ws files path) =
        sys.canonicalPath host ws.docroot ∨
      (sys.canonicalPath host ws.docroot ++ "/").toList <+:
        (sys.canonicalPath host (staticPath ws files path)).toList)
    (hfile : files.isFile host (staticPath ws files path) = true)
    (hcontent : sys.readFile host (sys.canonicalPath host (staticPath ws files path)) =
      some content) :
    Served ws files host path (sys.canonicalPath host (staticPath ws files path)) content := by
  have hcanonical := (laws.canonical host (staticPath ws files path)).resolve_left hfull
  have hregular := (filelaws.isFile_canonicalPath host _ hfull).trans hfile
  have hwithin : Within (sys.canonicalPath host ws.docroot)
      (sys.canonicalPath host (staticPath ws files path)) := by
    rcases hinside with heq | hprefix
    · rw [heq]
      exact .refl _
    · rw [String.toList_append] at hprefix
      exact within_of_slash_prefix hprefix
  refine ⟨hregular, hcontent, ⟨hcanonical, laws.self host _ hfull⟩, hwithin, ?_⟩
  intro hrooted
  refine ⟨hwithin, ?_⟩
  intro hcs
  -- Otherwise the docroot would be a regular file with something below it.
  obtain ⟨rest, hrest⟩ := staticPath_eq filelaws ws hrooted
  have hfolder := filelaws.isFile_folder host ws.docroot rest (by rwa [← hrest])
  have heq := ((laws.canonical host ws.docroot).resolve_left hdoc).ext hcanonical hcs
  rw [heq, hregular] at hfolder
  cases hfolder

/-- What the page server sends: an error, or a file under the docroot. -/
theorem serveStatic_cases {sys : HostSystem} {files : StaticFiles sys} (laws : PathLaws sys)
    (filelaws : FileLaws sys files) (ws : WebServer) (host : sys.Host) (path : String) :
    serveStatic ws files host path = apiNotFound ws ∨
      serveStatic ws files host path = sendStatus .notFound ∨
      ∃ file content, serveStatic ws files host path =
          sendBody (contentTypeFor file) content ws.tls .ok ∧
        Served ws files host path file content := by
  rw [serveStatic]
  split
  · exact .inl rfl
  · refine .inr ?_
    dsimp only
    split
    · exact .inl rfl
    · next hpass =>
      split
      · exact .inl rfl
      · next content hcontent =>
        refine .inr ⟨_, content, rfl, ?_⟩
        simp only [Bool.or_eq_true, not_or, Bool.not_eq_true, Bool.not_eq_false'] at hpass
        obtain ⟨⟨⟨hdoc, hfull⟩, hinside⟩, hfile⟩ := hpass
        have hne := canonicalFilePath_of_ne (by simpa using hfull)
        rw [hne] at hfull hinside hcontent ⊢
        refine served_of_checks laws filelaws (by simpa using hdoc) (by simpa using hfull) ?_ hfile
          hcontent
        rwa [decide_eq_true_eq, List.isPrefixOf_iff_prefix] at hinside

/-! ### Everything a client path leads to -/

/-- A path is a folder or below it. -/
def AtOrBelow (base path : String) : Prop := path = base ∨ Below base path

theorem atOrBelow_of_within {base path : String} (hbase : Canonical base) (hpath : Canonical path)
    (h : Within base path) : AtOrBelow base path := by
  by_cases heq : path = base
  · exact .inl heq
  · exact .inr ⟨h, fun hcs => heq (hpath.ext hbase hcs.symm)⟩

/-- What the handlers keep to. -/
structure Confined (L : Library) (files : StaticFiles L.system) : Prop where
  /-- A target is the base or below it. -/
  target : ∀ (st : State L) (root uuid path base target : String),
    Api.resolveBrowseTarget st root uuid path = .ok (base, target) → AtOrBelow base target
  /-- An answer that is no error is a listing, -/
  listed : ∀ (st : State L) (req : Request) (m : Moment) (r : Response),
    (Api.browse req m st).2 = .now r → r.status = .ok →
      ∃ base path parent, Api.Lists st req m base path parent
  /-- of a folder at or below the base, with its own folder as the parent. -/
  browse : ∀ (st : State L) (req : Request) (m : Moment) (base path parent : String),
    Api.Lists st req m base path parent → AtOrBelow base path ∧ AtOrBelow base parent ∧
      parent = if path = base then base else parentFolder path
  /-- The parents lead to the base. -/
  climb : ∀ (sts : Nat → State L) (reqs : Nat → Request) (ms : Nat → Moment)
    (base path parent : String), Api.Climb sts reqs ms →
      Api.Lists (sts 0) (reqs 0) (ms 0) base path parent →
      ∃ n, Api.Lists (sts n) (reqs n) (ms n) base base base
  /-- A request for a folder leaves the files alone, or what is new is below its base. -/
  mkdir : ∀ (st : State L) (req : Request) (m : Moment),
    (Api.mkdir req m st).1.host = st.host ∨
      ∃ base path, Api.mkdirTarget st req = .ok (base, path) ∧
        ∀ p, Canonical p → L.system.canonicalPath (Api.mkdir req m st).1.host p = p →
          L.system.canonicalPath st.host p = p ∨ Below base p
  /-- The page server sends errors and files below the docroot. -/
  served : ∀ (ws : WebServer) (host : L.system.Host) (path : String),
    serveStatic ws files host path = apiNotFound ws ∨
      serveStatic ws files host path = sendStatus .notFound ∨
      ∃ file content, serveStatic ws files host path =
          sendBody (contentTypeFor file) content ws.tls .ok ∧
        Served ws files host path file content

/-- **Path confinement**, on every host that keeps the laws of the path functions. -/
theorem paths_confined {files : StaticFiles L.system} (laws : PathLaws L.system)
    (filelaws : FileLaws L.system files) : Confined L files where
  target st root uuid path base target h := by
    have hres := Api.resolved_of_resolveBrowseTarget laws h
    exact atOrBelow_of_within hres.canonicalBase hres.canonicalTarget hres.within
  listed st req m r h hok := Api.lists_of_ok h hok
  browse st req m base path parent h := by
    obtain ⟨-, htarget, rfl⟩ := Api.lists_iff.mp h
    have hres := Api.resolved_of_resolveBrowseTarget laws htarget
    rw [Api.browseParent_eq laws hres.canonicalBase hres.canonicalTarget hres.within]
    refine ⟨atOrBelow_of_within hres.canonicalBase hres.canonicalTarget hres.within, ?_, rfl⟩
    split
    · exact .inl rfl
    · next hne =>
      have hbelow : Below base path :=
        ⟨hres.within, fun hcs => hne (hres.canonicalTarget.ext hres.canonicalBase hcs.symm)⟩
      exact atOrBelow_of_within hres.canonicalBase hres.canonicalTarget.parentFolder
        (hbelow.parentFolder hres.canonicalTarget)
  climb sts reqs ms base path parent hclimb h := hclimb.reaches_base laws h
  mkdir st req m := by
    rcases Api.host_mkdir st req m with hsame | ⟨base, path, htarget, hname, hhost⟩
    · exact .inl hsame
    · refine .inr ⟨base, path, htarget, ?_⟩
      intro p hp hself
      have hres := Api.resolved_of_resolveBrowseTarget laws htarget
      have hplain := plainName_of_validIdentifier hname
      rw [hhost] at hself
      rcases laws.makeDir _ _ _ p hres.canonicalTarget hres.realTarget hplain hp hself with
        hold | rfl
      · exact .inl hold
      · exact .inr (hres.within.child_below hres.canonicalTarget hplain)
  served ws host path := serveStatic_cases laws filelaws ws host path

/-- The reference library on a host with a file system. -/
def fileLibrary : Library := { Reference.library with system := fileHost }

/-- A scripts folder, its neighbour with a longer name, and a link to the neighbour. -/
def demoFiles : FileSystem Bytes where
  entries :=
    [(["srv".toList], .folder), (["srv".toList, "scripts".toList], .folder),
      (["srv".toList, "scripts-old".toList], .folder),
      (["srv".toList, "scripts-old".toList, "a.sh".toList], .file (toUtf8 "#!/bin/sh")),
      (["srv".toList, "scripts".toList, "old".toList], .link "../scripts-old")]
  current := []
  current_folder := by decide
  in_folder := by decide

/-- The daemon with these files. -/
def demoState : State fileLibrary where
  conf := (∅ : StringMap QVariant).insert "paths/scripts" (.str "/srv/scripts/")
  sessions := Reference.initial.sessions
  jobs := Reference.initial.jobs
  pbs := Reference.initial.pbs
  ssh := Reference.initial.ssh
  manager := Reference.initial.manager
  host := demoFiles
  debugLogging := false
  secureCookies := false

/-- The neighbour can be reached by its path and by the link, and is not listed. -/
theorem paths_confined_demo :
    Confined fileLibrary fileHostFiles ∧
      fileHost.canonicalPath demoFiles "/srv//scripts/./old" = "/srv/scripts-old" ∧
      (Api.resolveBrowseTarget demoState "script" "" "/srv/scripts/old").toOption =
        some ("/srv/scripts", "/srv/scripts") ∧
      (serveStatic ⟨"/srv/scripts", false⟩ fileHostFiles demoFiles "/old/a.sh").status =
        .notFound ∧
      (serveStatic ⟨"/srv/scripts-old", false⟩ fileHostFiles demoFiles "/../a.sh").body =
        toUtf8 "#!/bin/sh" := by
  refine ⟨paths_confined pathLaws_fileHost fileLaws_fileHost, ?_, ?_, ?_, ?_⟩
  · decide +kernel
  · decide +kernel
  · decide +kernel
  · decide +kernel

end TiBackup
