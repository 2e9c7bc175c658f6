import TiBackup.Files.Confinement
import TiBackup.Model.WebApp

/-!
# TiBackup.Files.RemotePaths

**Paths on a remote machine.** GET /api/ssh/<uuid>/browse cuts a path at its last slash to
find the parent, POST /api/ssh/<uuid>/mkdir drops the slashes at the end of a path and puts a
name behind it. A path denotes its components, so the new folder is always the right one, and
leads back to where it was created. The parent is the right one all the way up to the root
exactly when no slash behind the first component is repeated or at the end
(`remotePaths_coherent_iff`): the slashes at the end are not dropped before the cut.
-/

namespace TiBackup

open Lib Lib.Path

/-! ### What the two routes report -/

/-- Every listing of the path that succeeds reports this parent. -/
def ReportsParent (p parent : String) : Prop :=
  ∀ (L : Library) (uuid : String) (q : Request) (t : Moment) (st st' : State L) (r : Response),
    queryItemValue q "path" = p → (Api.finish (Api.sshBrowse uuid q t st).2 st').2 = r →
      r.status = .ok → r.body.toObject.get "path" = .str p ∧
        r.body.toObject.get "parent" = .str parent

/-- Every time a folder of that name is created in the path, this is the path reported. -/
def ReportsCreated (p name full : String) : Prop :=
  ∀ (L : Library) (uuid : String) (q : Request) (t : Moment) (st st' : State L) (r : Response),
    ((parseBody q).get "path").toString = p → ((parseBody q).get "name").toString = name →
      (Api.finish (Api.sshMkdir uuid q t st).2 st').2 = r → r.status = .ok →
        r.body.toObject.get "path" = .str full

/-- A machine whose remote side lists every folder as empty and creates every folder. -/
def remoteHost : HostSystem :=
  { Reference.system with
    sshListDir := fun _ _ _ => ⟨true, "", []⟩
    sshMkdir := fun _ _ _ => ((), ⟨true, ""⟩) }

/-- A server that is registered. -/
def remoteServer : SSHServer := ⟨"s1", "nas", "nas.local", 22, "backup", "", "", "key"⟩

/-- A daemon that knows the server. -/
def remoteState : State (Reference.libraryOn remoteHost fun _ => "") :=
  let st := Reference.stateOn remoteHost (fun _ => "") ∅ ()
  { st with ssh := (KeyedStore.ofMap SSHServer.uuid).save st.ssh remoteServer }

theorem getSshByUuid_remoteState (q : Request) :
    Api.getSshByUuid (remoteState.validated 1 q) "s1" = some remoteServer :=
  ((KeyedStore.ofMap SSHServer.uuid).find_save _ _ _).trans (if_pos rfl)

namespace Api

/-- A listing that succeeds is one of the path that was asked for, or of the root. -/
theorem sshBrowse_listing {L : Library} {uuid : String} {q : Request} {t : Moment} {st st' : State L}
    (hok : (finish (sshBrowse uuid q t st).2 st').2.status = .ok) :
    ∃ lr : ListResult, lr.ok = true ∧ (finish (sshBrowse uuid q t st).2 st').2 =
      sshBrowseDone (if (queryItemValue q "path").isEmpty then "/" else queryItemValue q "path")
        lr := by
  by_cases hlive : ∃ s, LiveSession st t.now q s
  · obtain ⟨s, hs⟩ := hlive
    rw [sshBrowse, withAuth_of_live hs] at hok ⊢
    dsimp only [reads] at hok ⊢
    split at hok
    · cases hok
    · next srv _ =>
      refine ⟨L.system.sshListDir st'.host srv _, ?_, rfl⟩
      by_contra hfail
      rw [finish, runWork, sshBrowseDone, if_pos (by simpa using hfail)] at hok
      cases hok
  · rw [sshBrowse, withAuth_of_not_live (not_exists.mp hlive)] at hok
    cases hok

/-- A listing that succeeds has the path that was asked for and its parent. -/
theorem sshBrowse_ok {L : Library} {uuid : String} {q : Request} {t : Moment} {st st' : State L}
    (hpath : queryItemValue q "path" ≠ "")
    (hok : (finish (sshBrowse uuid q t st).2 st').2.status = .ok) :
    ∃ lr : ListResult, lr.ok = true ∧ (finish (sshBrowse uuid q t st).2 st').2 =
      sshBrowseDone (queryItemValue q "path") lr := by
  have hlisting := sshBrowse_listing hok
  rwa [if_neg (by simpa using hpath)] at hlisting

/-- A folder that is created is reported with the path that was put together. -/
theorem sshMkdir_ok {L : Library} {uuid : String} {q : Request} {t : Moment} {st st' : State L}
    (hok : (finish (sshMkdir uuid q t st).2 st').2.status = .ok) :
    ∃ mr : CommandResult, mr.ok = true ∧ (finish (sshMkdir uuid q t st).2 st').2 =
      sshMkdirDone (remoteChild ((parseBody q).get "path").toString
        ((parseBody q).get "name").toString) mr := by
  rw [sshMkdir] at hok ⊢
  rcases guarded_cases st q t .future _ with ⟨-, hrun⟩ | ⟨e, he, hrun⟩
  · rw [hrun] at hok ⊢
    dsimp only [reads] at hok ⊢
    split at hok
    · cases hok
    · next srv _ =>
      split at hok
      · cases hok
      · next hname =>
        rw [if_neg hname]
        refine ⟨(L.system.sshMkdir st'.host srv _).2, ?_, rfl⟩
        by_contra hfail
        rw [finish, runWork, sshMkdirDone, if_pos (by simpa using hfail)] at hok
        cases hok
  · rw [hrun] at hok
    rcases he with rfl | rfl
    · cases hok
    · cases hok

end Api

/-- A request of the page for a listing of the path. -/
def listRequest (p : String) : Request := { Reference.request .null with query := [("path", p)] }

/-- A request of the page for a folder of that name in the path. -/
def createRequest (p name : String) : Request :=
  Reference.request (.obj [("path", .str p), ("name", .str name)])

/-- There is one parent that is reported. -/
theorem reportsParent_iff {p parent : String} (hp : p ≠ "") :
    ReportsParent p parent ↔ parent = Api.remoteParent p := by
  constructor
  · intro h
    have hlive : LiveSession remoteState 1 (listRequest p) _ := Reference.liveSession rfl rfl
    have hanswer : (Api.finish (Api.sshBrowse "s1" (listRequest p) (Reference.moment "")
        remoteState).2 remoteState).2 = Api.sshBrowseDone p ⟨true, "", []⟩ := by
      rw [Api.sshBrowse, Api.withAuth_of_live hlive]
      dsimp only [Api.reads]
      rw [show (Reference.moment "").now = 1 from rfl, getSshByUuid_remoteState]
      have hpath : (queryItemValue (listRequest p) "path").isEmpty = false := by
        rw [show queryItemValue (listRequest p) "path" = p from rfl]
        simpa using hp
      dsimp only
      rw [hpath]
      rfl
    have hparent := (h _ "s1" (listRequest p) (Reference.moment "") remoteState remoteState _ rfl
      hanswer rfl).2
    injection hparent.symm
  · rintro rfl L uuid q t st st' r rfl rfl hok
    obtain ⟨lr, hlr, hr⟩ := Api.sshBrowse_ok hp hok
    rw [hr, Api.sshBrowseDone, if_neg (by simp [hlr])]
    exact ⟨rfl, rfl⟩

/-- There is one path that is reported. -/
theorem reportsCreated_iff {p name full : String} (hname : validIdentifier name = true) :
    ReportsCreated p name full ↔ full = Api.remoteChild p name := by
  constructor
  · intro h
    have hverified : CsrfVerified remoteState 1 (createRequest p name) :=
      Reference.csrfVerified rfl _
    have hanswer : (Api.finish (Api.sshMkdir "s1" (createRequest p name) (Reference.moment "")
        remoteState).2 remoteState).2 = Api.sshMkdirDone (Api.remoteChild p name) ⟨true, ""⟩ := by
      rw [Api.sshMkdir, Api.withCsrf_of_verified hverified]
      dsimp only [Api.reads]
      rw [show (Reference.moment "").now = 1 from rfl, getSshByUuid_remoteState]
      have hvalid : validIdentifier ((parseBody (createRequest p name)).get "name").toString = true :=
        hname
      dsimp only
      rw [hvalid]
      rfl
    have hfull := h _ "s1" (createRequest p name) (Reference.moment "") remoteState remoteState _
      rfl rfl hanswer rfl
    injection hfull.symm
  · rintro rfl L uuid q t st st' r rfl rfl rfl hok
    obtain ⟨mr, hmr, hr⟩ := Api.sshMkdir_ok hok
    rw [hr, Api.sshMkdirDone, if_neg (by simp [hmr])]
    rfl

/-! ### The two computations -/

namespace Api

/-- The parent is what stands before the last slash. -/
theorem remoteParent_eq {p : String} {front last : List Char} (h : p.toList = front ++ '/' :: last)
    (hlast : '/' ∉ last) :
    remoteParent p = if front.isEmpty then "/" else String.ofList front := by
  have hbefore : (p.toList.reverse.dropWhile (· ≠ '/')).drop 1 = front.reverse := by
    have hchars : ∀ c ∈ last.reverse, decide (c ≠ '/') = true := by
      intro c hc
      exact decide_eq_true fun heq => hlast (heq ▸ List.mem_reverse.mp hc)
    rw [h, List.reverse_append, List.reverse_cons, List.append_assoc,
      List.dropWhile_append_of_pos hchars]
    rfl
  rw [remoteParent]
  split
  · next hroot =>
    subst hroot
    have hlength := congrArg List.length h
    have hfront : front = [] := by
      rw [← List.length_eq_zero_iff]
      simp at hlength
      omega
    rw [hfront]
    rfl
  · dsimp only
    rw [hbefore, List.isEmpty_reverse, List.reverse_reverse]

/-- It denotes what stands before the last slash. -/
theorem components_remoteParent {p : String} {front last : List Char}
    (h : p.toList = front ++ '/' :: last) (hlast : '/' ∉ last) :
    components (remoteParent p) = components (String.ofList front) := by
  rw [remoteParent_eq h hlast]
  split
  · next hempty =>
    rw [List.isEmpty_iff.mp hempty]
    rfl
  · rfl

/-- The slashes at the end denote nothing. -/
theorem components_rdropWhile (xs : List Char) :
    components (String.ofList (xs.rdropWhile (· = '/'))) = components (String.ofList xs) := by
  induction xs using List.reverseRecOn with
  | nil => rfl
  | append_singleton xs c ih =>
    by_cases hc : c = '/'
    · subst hc
      rw [List.rdropWhile_concat_pos _ _ _ (by simp), ih,
        components_of_last_slash (p := String.ofList (xs ++ ['/'])) String.toList_ofList
          List.not_mem_nil]
      simp
    · rw [List.rdropWhile_concat_neg _ _ _ (by simpa using hc)]

/-- The path of a new folder, cut at its last slash. -/
theorem toList_remoteChild {p : String} (hp : p ≠ "") (name : String) :
    (remoteChild p name).toList = p.toList.rdropWhile (· = '/') ++ '/' :: name.toList := by
  have hparent : (if p.isEmpty then "/" else p) = p := if_neg (by simpa using hp)
  simp only [remoteChild, hparent]
  split
  · next hempty =>
    rw [List.isEmpty_iff.mp hempty, String.toList_append]
    rfl
  · simp

end Api

/-! ### All the way up -/

/-- A path that begins at the root. -/
def Absolute (p : String) : Prop := p.toList.head? = some '/'

instance (p : String) : Decidable (Absolute p) := inferInstanceAs (Decidable (_ = _))

theorem Absolute.slash_mem {p : String} (h : Absolute p) : '/' ∈ p.toList :=
  List.mem_of_head? h

theorem Absolute.ne_empty {p : String} (h : Absolute p) : p ≠ "" := by
  rintro rfl
  cases h

/-- What stands before a slash that is not the first one begins at the root, too. -/
theorem Absolute.front {p : String} (h : Absolute p) {front last : List Char}
    (hp : p.toList = front ++ '/' :: last) (hfront : front ≠ []) : Absolute (String.ofList front) := by
  rw [Absolute, hp, List.head?_append_of_ne_nil _ hfront] at h
  rwa [Absolute, String.toList_ofList]

theorem Absolute.remoteParent {p : String} (h : Absolute p) : Absolute (Api.remoteParent p) := by
  obtain ⟨front, last, hp, hlast⟩ := exists_last_slash h.slash_mem
  rw [Api.remoteParent_eq hp hlast]
  split
  · rfl
  · next hfront => exact h.front hp (by simpa using hfront)

theorem Absolute.iterate {p : String} (h : Absolute p) (k : Nat) :
    Absolute (Api.remoteParent^[k] p) := by
  induction k with
  | zero => exact h
  | succ k ih =>
    rw [Function.iterate_succ_apply']
    exact ih.remoteParent

/-- Following the parent goes up one level each time, and stays at the root. -/
def Climbs (p : String) : Prop :=
  ∀ k, components (Api.remoteParent^[k] p) = (components p).take ((components p).length - k)

/-- The parent of a tidy path is tidy, and the folder that the path is in. -/
theorem tidy_remoteParent {p : String} (habs : Absolute p) (h : Tidy p) :
    Tidy (Api.remoteParent p) ∧ components (Api.remoteParent p) = (components p).dropLast := by
  obtain ⟨n, cs, hcs, hp⟩ := h
  have htidy : ∃ front last, p.toList = front ++ '/' :: last ∧ '/' ∉ last ∧
      Tidy (String.ofList front) ∧ components (String.ofList front) = cs.dropLast := by
    cases cs using List.reverseRecOn with
    | nil =>
      cases n with
      | zero => exact absurd (String.toList_injective hp) habs.ne_empty
      | succ n =>
        have hfront : (String.ofList (List.replicate n '/')).toList =
            List.replicate n '/' ++ slashed [] := by simp [slashed]
        refine ⟨List.replicate n '/', [], ?_, List.not_mem_nil, ⟨n, [], hcs, hfront⟩, ?_⟩
        · rw [hp, List.replicate_succ']
          simp [slashed]
        · exact components_of_tidy hcs hfront
    | append_singleton cs c =>
      have hcs' : ∀ d ∈ cs, d ≠ [] ∧ '/' ∉ d := fun d hd => hcs d (by simp [hd])
      refine ⟨List.replicate n '/' ++ slashed cs, c, ?_, (hcs c (by simp)).2,
        ⟨n, cs, hcs', String.toList_ofList⟩, ?_⟩
      · rw [hp, slashed_concat, List.append_assoc]
      · rw [components_of_tidy hcs' String.toList_ofList, List.dropLast_concat]
  obtain ⟨front, last, hsplit, hlast, hfront, hcomponents⟩ := htidy
  rw [components_of_tidy hcs hp, Api.components_remoteParent hsplit hlast,
    Api.remoteParent_eq hsplit hlast]
  refine ⟨?_, hcomponents⟩
  split
  · exact ⟨1, [], by simp, rfl⟩
  · exact hfront

theorem climbs_of_tidy {p : String} (habs : Absolute p) (h : Tidy p) : Climbs p := by
  intro k
  induction k generalizing p with
  | zero => simp
  | succ k ih =>
    obtain ⟨htidy, hup⟩ := tidy_remoteParent habs h
    rw [Function.iterate_succ_apply, ih habs.remoteParent htidy, hup, List.length_dropLast,
      List.dropLast_eq_take, List.take_take]
    congr 1
    omega

/-- A path with a slash at its end is its own parent, so only the root may have one. -/
theorem Climbs.components_eq_nil {p : String} (h : Climbs p) {front : List Char}
    (hsplit : p.toList = front ++ ['/']) : components p = [] := by
  have hp := components_of_last_slash hsplit List.not_mem_nil
  rw [if_pos List.isEmpty_nil, List.append_nil] at hp
  have hup := h 1
  rw [Function.iterate_one, Api.components_remoteParent hsplit List.not_mem_nil, hp] at hup
  have hlength := congrArg List.length hup
  rw [List.length_take] at hlength
  rw [hp, ← List.length_eq_zero_iff]
  omega

/-- Behind the first step, the way goes up from what stands before the last slash. -/
theorem Climbs.front {p : String} (h : Climbs p) {front last : List Char}
    (hsplit : p.toList = front ++ '/' :: last) (hlast : '/' ∉ last) (hnil : last ≠ [])
    (hfront : front ≠ []) : Climbs (String.ofList front) := by
  intro k
  have hk := h (k + 1)
  have hp := components_of_last_slash hsplit hlast
  rw [if_neg (by simpa using hnil)] at hp
  rw [Function.iterate_succ_apply, Api.remoteParent_eq hsplit hlast,
    if_neg (by simpa using hfront), hp, List.length_append, List.length_singleton,
    Nat.add_sub_add_right, List.take_append_of_le_length (Nat.sub_le _ _)] at hk
  exact hk

/-- A path that is not tidy gets stuck on the way up. -/
theorem tidy_of_climbs {p : String} (habs : Absolute p) (h : Climbs p) : Tidy p := by
  generalize hn : p.toList.length = n
  induction n using Nat.strongRecOn generalizing p with
  | _ n ih =>
    obtain ⟨front, last, hsplit, hlast⟩ := exists_last_slash habs.slash_mem
    by_cases hnil : last = []
    · subst hnil
      refine ⟨p.toList.length, [], by simp, ?_⟩
      rw [show slashed [] = [] from rfl, List.append_nil]
      exact toList_eq_replicate_of_components_eq_nil (h.components_eq_nil hsplit)
    · have hlastOk : ∀ c ∈ [last], c ≠ [] ∧ '/' ∉ c := by simp [hnil, hlast]
      by_cases hfront : front = []
      · subst hfront
        exact ⟨0, [last], hlastOk, by rw [hsplit, slashed_cons]; simp [slashed]⟩
      · have hshort : (String.ofList front).toList.length < n := by
          rw [← hn, hsplit, String.toList_ofList]
          simp
        obtain ⟨m, cs, hcs, htidy⟩ := ih _ hshort (habs.front hsplit hfront)
          (h.front hsplit hlast hnil hfront) rfl
        rw [String.toList_ofList] at htidy
        refine ⟨m, cs ++ [last], List.forall_mem_append.mpr ⟨hcs, hlastOk⟩, ?_⟩
        rw [hsplit, htidy, slashed_concat, List.append_assoc]

/-! ### The whole statement -/

/-- What the routes report of a path fits together. -/
structure RemotePathsCoherent (p : String) : Prop where
  root : ReportsParent "/" "/"
  parent : ∃ above, ReportsParent p above ∧ components above = (components p).dropLast
  climb : ∃ up : Nat → String, up 0 = p ∧ ∀ k, ReportsParent (up k) (up (k + 1)) ∧
    components (up k) = (components p).take ((components p).length - k)
  created : ∀ name, validIdentifier name = true → ∃ full, ReportsCreated p name full ∧
    components full = components p ++ [name.toList] ∧
    ∃ above, ReportsParent full above ∧ components above = components p

/-- The new folder is in the path, and its parent is the path again. -/
theorem remoteChild_child {p name : String} (habs : Absolute p) (hname : PlainName name.toList) :
    components (Api.remoteChild p name) = components p ++ [name.toList] ∧
      ReportsParent (Api.remoteChild p name) (Api.remoteParent (Api.remoteChild p name)) ∧
      components (Api.remoteParent (Api.remoteChild p name)) = components p := by
  have hchild := Api.toList_remoteChild habs.ne_empty name
  have hp := Api.components_rdropWhile p.toList
  rw [String.ofList_toList] at hp
  have hne : Api.remoteChild p name ≠ "" := by
    intro hempty
    rw [hempty] at hchild
    simp at hchild
  refine ⟨?_, (reportsParent_iff hne).mpr rfl, ?_⟩
  · rw [components_of_last_slash hchild hname.noSlash, hp, if_neg (by simpa using hname.nonempty)]
  · rw [Api.components_remoteParent hchild hname.noSlash, hp]

/-- **Remote paths fit together exactly when they are tidy.** -/
theorem remotePaths_coherent_iff {p : String} (habs : Absolute p) :
    RemotePathsCoherent p ↔ Tidy p := by
  constructor
  · intro h
    obtain ⟨up, rfl, hup⟩ := h.climb
    have hiterate : ∀ k, up k = Api.remoteParent^[k] (up 0) := by
      intro k
      induction k with
      | zero => rfl
      | succ k ih =>
        have hne : up k ≠ "" := by
          rw [ih]
          exact (habs.iterate k).ne_empty
        rw [Function.iterate_succ_apply', ← ih]
        exact (reportsParent_iff hne).mp (hup k).1
    refine tidy_of_climbs habs fun k => ?_
    rw [← hiterate]
    exact (hup k).2
  · intro h
    have hclimbs := climbs_of_tidy habs h
    refine ⟨(reportsParent_iff (by decide)).mpr (by decide), ?_, ?_, ?_⟩
    · exact ⟨_, (reportsParent_iff habs.ne_empty).mpr rfl, (tidy_remoteParent habs h).2⟩
    · refine ⟨fun k => Api.remoteParent^[k] p, rfl, fun k => ⟨?_, hclimbs k⟩⟩
      exact (reportsParent_iff (habs.iterate k).ne_empty).mpr (Function.iterate_succ_apply' _ _ _)
    · intro name hname
      obtain ⟨hchild, hreports, hback⟩ :=
        remoteChild_child habs (plainName_of_validIdentifier hname)
      exact ⟨_, (reportsCreated_iff hname).mpr rfl, hchild, _, hreports, hback⟩

/-- A folder two levels below the root. -/
theorem remotePaths_coherent_photos : Absolute "/srv/photos" ∧ RemotePathsCoherent "/srv/photos" :=
  ⟨by decide, (remotePaths_coherent_iff (by decide)).mpr
    ⟨0, ["srv".toList, "photos".toList], by decide, by decide⟩⟩

/-- **A slash at the end**: the parent of `/srv/` is `/srv`. -/
theorem remotePaths_trailingSlash : ¬ ∀ p, Absolute p → RemotePathsCoherent p := by
  intro hall
  obtain ⟨above, hreported, habove⟩ := (hall "/srv/" (by decide)).parent
  have hparent : above = "/srv" := ((reportsParent_iff (by decide)).mp hreported).trans (by decide)
  rw [hparent] at habove
  exact absurd habove (by decide)

end TiBackup
