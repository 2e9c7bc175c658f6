import TiBackup.Files.Picker
import TiBackup.Files.RemotePaths

/-!
# TiBackup.Files.PickerHosts

**The picker on the files of the daemon and of a remote machine.** `/api/browse` answers with
canonical paths and clamps what leads out of its base; as long as the files stay as they are,
a folder it has shown, and every folder that one is in, is shown when it is asked for
(`exists_folders`). `/api/ssh/<uuid>/browse` answers with the path it was asked for, whatever
it is, and finds the parent by cutting; on the paths the picker puts together both are right.

So the picker follows a trail on either (`picker_follows_trail`,
`remote_picker_follows_trail`).
-/

namespace TiBackup

open Lib Lib.Machine Lib.Path

variable {L : Library}

/-! ### The folders of the daemon -/

/-- The folders above a real one are real. -/
theorem real_of_within (laws : PathLaws L.system) {host : L.system.Host} {p q : String}
    (hp : Canonical p) (hreal : L.system.canonicalPath host p = p) (hq : Canonical q)
    (h : Within q p) : L.system.canonicalPath host q = q := by
  obtain ⟨rest, hrest⟩ := h
  induction rest using List.reverseRecOn generalizing p with
  | nil =>
    rw [List.append_nil] at hrest
    rwa [hq.ext hp hrest]
  | append_singleton rest n ih =>
    refine ih hp.parentFolder (laws.folder host p hp hreal) ?_
    rw [components_parentFolder hp, ← hrest, ← List.append_assoc, List.dropLast_concat]

/-- If one path can be resolved, all can, and the empty one to the base. -/
theorem resolves_all {st : State L} {root uuid p base target : String}
    (h : Api.resolveBrowseTarget st root uuid p = .ok (base, target)) :
    (∀ q, ∃ target', Api.resolveBrowseTarget st root uuid q = .ok (base, target')) ∧
      Api.resolveBrowseTarget st root uuid "" = .ok (base, base) := by
  obtain ⟨b, hb, hempty, hpath, hne, -⟩ := Api.resolveBrowseTarget_cases h
  have hbase : base.isEmpty = false := by simpa using hne
  have hresolve : ∀ q, Api.resolveBrowseTarget st root uuid q =
      let target := L.system.canonicalPath st.host (if q.isEmpty then b else q)
      if !target.isEmpty && Api.insideBase base target then .ok (base, target) else .ok (base, base) := by
    intro q
    simp only [Api.resolveBrowseTarget, hb, hempty, hpath, hbase, Bool.false_eq_true, if_false]
  constructor
  · intro q
    rw [hresolve]
    generalize L.system.canonicalPath st.host (if q.isEmpty then b else q) = target
    dsimp only
    split
    · exact ⟨_, rfl⟩
    · exact ⟨_, rfl⟩
  · have hempty' : ("".isEmpty : Bool) = true := rfl
    rw [hresolve, if_pos hempty', hpath]
    dsimp only
    split
    · rfl
    · rfl

/-- The folders that `/api/browse` lists. -/
theorem exists_folders (laws : PathLaws L.system) {st : State L} {root uuid p base target : String}
    (h : Api.resolveBrowseTarget st root uuid p = .ok (base, target)) :
    ∃ F : Folders, F.base = base ∧ F.resolve "" = base ∧
      ∀ q, Api.resolveBrowseTarget st root uuid q = .ok (F.base, F.resolve q) := by
  obtain ⟨hall, hbase⟩ := resolves_all h
  choose resolve hresolve using hall
  have hres q := Api.resolved_of_resolveBrowseTarget laws (hresolve q)
  refine ⟨⟨base, resolve, (hres "").canonicalBase, fun q => (hres q).canonicalTarget,
    fun q => (hres q).within, ?_⟩, rfl, ?_, hresolve⟩
  · intro q q' hq' hwithin hbelow
    have hreal := real_of_within laws (hres q).canonicalTarget (hres q).realTarget hq' hbelow
    have hself := Api.resolveBrowseTarget_of_within h (hres q).canonicalBase hq' hreal hwithin
    exact (Prod.mk.inj (Except.ok.inj ((hresolve q').symm.trans hself))).2
  · exact (Prod.mk.inj (Except.ok.inj ((hresolve "").symm.trans hbase))).2

namespace Picker

/-- The daemon gives this answer to the request, in a state with these files and this
configuration. -/
def Replies (st : State L) (q : PickerRequest) (r : Response) : Prop :=
  ∃ (c : Call) (st₁ st₂ : State L), c.route = q.route ∧ c.req.query = q.query ∧
    st₁.host = st.host ∧ st₁.conf = st.conf ∧ r = (Api.finish (Api.serve c st₁).2 st₂).2

/-- The parent that the daemon reports. -/
theorem parent_names {F : Folders} {p : String} (hp : Canonical p) (hwithin : Within F.base p) :
    (if p = F.base then F.base else parentFolder p) = F.path (F.names p).dropLast := by
  split
  · next heq =>
    rw [heq, Folders.names, List.drop_length, List.dropLast_nil, Folders.path_nil]
  · next hne =>
    have hnil : F.names p ≠ [] := by
      intro hnil
      refine hne ?_
      rw [← Folders.path_names hp hwithin, hnil, Folders.path_nil]
    have hcomponents : components p = components F.base ++ F.names p := by
      rw [← Folders.components_path (Folders.plain_names hp), Folders.path_names hp hwithin]
    rw [parentFolder, hcomponents, List.dropLast_append_of_ne_nil hnil, Folders.path]

/-- What the daemon lists on a request of the picker. -/
theorem target_of_replies {st : State L} {s : Picker} (hssh : s.pickerSshUuid = "") {p : String}
    {r : Response} (h : Replies st (s.request p) r) (hok : r.status = .ok) :
    ∃ base path entries, Api.resolveBrowseTarget st (formValue s.pickerMode)
        (formValue s.pickerUuid) (formValue p) = .ok (base, path) ∧
      r = jsonResp (.obj [("base", .str base), ("path", .str path),
        ("parent", .str (Api.browseParent L base path)), ("entries", .arr entries)]) := by
  obtain ⟨⟨route, req, m⟩, st₁, st₂, hroute, hquery, hhost, hconf, hr⟩ := h
  obtain rfl : route = .browse := hroute.trans (if_neg (by simpa using hssh))
  have hroot : queryItemValue req "root" = formValue s.pickerMode := by
    rw [queryItemValue, hquery, request, hssh]
    rfl
  have hpath : queryItemValue req "path" = formValue p := by
    rw [queryItemValue, hquery, path_request]
  have huuid : queryItemValue req "uuid" = formValue s.pickerUuid := by
    rw [queryItemValue, hquery, request, hssh]
    by_cases huuid : s.pickerUuid = ""
    · rw [huuid]
      cases s.pickerFiles <;> rfl
    · simp only [ne_eq, huuid, not_false_eq_true, if_true]
      rfl
  have hnow : (Api.browse req m st₁).2 = .now r := by
    rw [hr]
    by_cases hlive : ∃ session, LiveSession st₁ m.now req session
    · obtain ⟨session, hsession⟩ := hlive
      rw [Api.serve, Api.handle, Api.browse_of_live hsession]
      rfl
    · rw [Api.serve, Api.handle, Api.browse_of_not_live hlive]
      rfl
  obtain ⟨base, path, parent, hlists⟩ := Api.lists_of_ok hnow hok
  obtain ⟨-, htarget, rfl⟩ := Api.lists_iff.mp hlists
  obtain ⟨entries, hlists⟩ := hlists
  rw [Api.target, hroot, hpath, huuid, Api.resolveBrowseTarget_congr hhost hconf] at htarget
  exact ⟨base, path, entries, htarget, Reply.now.inj (hnow.symm.trans hlists)⟩

/-- **A listing of the daemon.** -/
theorem lists_of_replies (laws : PathLaws L.system) {st : State L} {F : Folders} {s : Picker}
    (hssh : s.pickerSshUuid = "")
    (hF : ∀ p, Api.resolveBrowseTarget st (formValue s.pickerMode) (formValue s.pickerUuid) p =
      .ok (F.base, F.resolve p)) {p : String} {r : Response} (h : Replies st (s.request p) r)
    (hok : r.status = .ok) : Lists F (s.request p) r := by
  obtain ⟨base, path, entries, htarget, rfl⟩ := target_of_replies hssh h hok
  obtain ⟨rfl, rfl⟩ := Prod.mk.inj (Except.ok.inj ((hF _).symm.trans htarget))
  constructor
  · rfl
  · rw [goal_request, Folders.path_names (F.canonical _) (F.within _)]
    rfl
  · rw [goal_request, ← parent_names (F.canonical _) (F.within _),
      ← Api.browseParent_eq laws F.canonicalBase (F.canonical _) (F.within _)]
    rfl

/-! ### Local files -/

/-- **The picker follows a trail.** A picker is opened on the files of the daemon, when no answer
to an earlier one is under way, and its first listing arrives before anything is clicked. From
then on, whatever is clicked, and in whatever order the answers arrive or fail, it shows the
folder at the end of a trail of names from the base. The crumbs are the names of this trail,
going up or back takes names off, and what is chosen is the folder or an entry of it. -/
theorem picker_follows_trail (laws : PathLaws L.system) (st : State L) {s : Picker}
    (hidle : s.requests = []) {mode uuid : String} {files : Bool} {r : Response} (hok : r.status = .ok)
    (hr : Replies st ((s.openPicker mode uuid "" files).request "") r) {es : List PickerEvent}
    (hes : machine.Along (Used (Replies st)) (machine.run s (opening mode uuid "" files r)) es) :
    ∃ F : Folders, (∀ p, Api.resolveBrowseTarget st (formValue mode) (formValue uuid) p =
        .ok (F.base, F.resolve p)) ∧
      OnTrail F (machine.run s (opening mode uuid "" files r ++ es))
        ((Trail.machine F formValue).run {} (es.filterMap (move
          ((machine.run s (opening mode uuid "" files r)).pickerPlaces.map Crumb.path)))).here := by
  obtain ⟨base, path, entries, htarget, -⟩ := target_of_replies rfl hr hok
  obtain ⟨F, hbase, hempty, hF⟩ := exists_folders laws htarget
  refine ⟨F, hF, ?_⟩
  exact follows hidle (fun p r _ hok hreplies => lists_of_replies laws rfl hF hreplies hok)
    (hempty.trans hbase.symm) hok hr hes

/-- What a daemon answers the first request of the picker. -/
def reply (st : State L) (s : Picker) : Response :=
  match s.requests with
  | q :: _ => (Api.finish (Api.serve ⟨q.route, { Reference.request .null with query := q.query },
      Reference.moment ""⟩ st).2 st).2
  | [] => okResp

theorem replies_reply (st : State L) {s : Picker} {q : PickerRequest} (h : s.requests[0]? = some q) :
    Replies st q (reply st s) := by
  obtain ⟨qs, hqs⟩ : ∃ qs, s.requests = q :: qs := by
    cases hrequests : s.requests with
    | nil =>
      rw [hrequests] at h
      cases h
    | cons q' qs =>
      rw [hrequests] at h
      exact ⟨qs, by rw [Option.some.inj h]⟩
  rw [reply, hqs]
  exact ⟨_, st, st, rfl, rfl, rfl, rfl, rfl⟩

/-- A picker is opened on the files of the demo host. -/
def demoOpening : List PickerEvent :=
  opening "src" "" "" false (reply demoState (openPicker {} "src" "" "" false))

/-- Then the folder `srv` is opened. -/
def demoEvents : List PickerEvent :=
  let click := .activate ⟨"srv", true⟩
  [click, .answered 0 (reply demoState (machine.run {} (demoOpening ++ [click])))]

theorem picker_follows_trail_demo : ∃ F : Folders,
    (∀ p, Api.resolveBrowseTarget demoState "src" "" p = .ok (F.base, F.resolve p)) ∧
      OnTrail F (machine.run {} (demoOpening ++ demoEvents))
        ((Trail.machine F formValue).run {} (demoEvents.filterMap (move
          ((machine.run {} demoOpening).pickerPlaces.map Crumb.path)))).here := by
  have hok : (reply demoState (openPicker {} "src" "" "" false)).status = .ok := by decide +kernel
  have hplain : PlainName "srv".toList := by decide
  exact picker_follows_trail pathLaws_fileHost demoState rfl hok (replies_reply demoState rfl)
    ⟨fun _ => hplain, fun q hq _ => replies_reply demoState hq, trivial⟩

/-! ### Remote files -/

/-- The folders of a remote machine: every canonical path is listed as itself. -/
def remoteFolders : Folders where
  base := "/"
  resolve p := render ((components p).filter fun c => decide (PlainName c))
  canonicalBase := canonical_root
  canonical p := canonical_render (by simp)
  within p := by
    rw [Within, components_root]
    exact List.nil_prefix
  between p q hq _ _ := by
    rw [List.filter_eq_self.mpr (by simpa using hq.plain), hq.render_components]

theorem resolve_remoteFolders {p : String} (hp : Canonical p) : remoteFolders.resolve p = p := by
  show render ((components p).filter fun c => decide (PlainName c)) = p
  rw [List.filter_eq_self.mpr (by simpa using hp.plain), hp.render_components]

/-- The parent of a canonical path. -/
theorem remoteParent_render {cs : List (List Char)} (h : ∀ c ∈ cs, PlainName c) :
    Api.remoteParent (render cs) = render cs.dropLast := by
  cases cs using List.reverseRecOn with
  | nil => rfl
  | append_singleton cs c =>
    have hlist : (render (cs ++ [c])).toList = slashed cs ++ '/' :: c := by
      rw [render, if_neg (by simp), String.toList_ofList, slashed_concat]
    rw [Api.remoteParent_eq hlist (h c (by simp)).noSlash, List.dropLast_concat, render]
    cases cs with
    | nil => rfl
    | cons d ds => rfl

/-- What becomes of a character on the way. -/
def formChar (c : Char) : Char := if c = ' ' then '+' else c

theorem map_formChar_of_noPlus {t : List Char} (h : '+' ∉ t.map formChar) :
    t.map formChar = t := by
  refine (List.map_congr_left fun c hc => if_neg ?_).trans (List.map_id _)
  rintro rfl
  exact h (List.mem_map_of_mem hc)

theorem plainName_map_formChar {c : List Char} (h : PlainName c) : PlainName (c.map formChar) where
  nonempty := by simpa using h.nonempty
  noSlash hslash := by
    obtain ⟨x, hx, heq⟩ := List.mem_map.mp hslash
    rw [formChar] at heq
    split at heq
    · exact absurd heq (by decide)
    · exact h.noSlash (heq ▸ hx)
  notDot hdot := by
    have hsame := map_formChar_of_noPlus (t := c) (by rw [hdot]; decide)
    exact h.notDot (hsame.symm.trans hdot)
  notDotDot hdot := by
    have hsame := map_formChar_of_noPlus (t := c) (by rw [hdot]; decide)
    exact h.notDotDot (hsame.symm.trans hdot)

theorem slashed_map_formChar (cs : List (List Char)) :
    (slashed cs).map formChar = slashed (cs.map (List.map formChar)) := by
  induction cs with
  | nil => rfl
  | cons c cs ih => rw [List.map_cons, slashed_cons, slashed_cons, List.map_cons, List.map_append, ih]; rfl

/-- A path with plus signs for its spaces is as canonical as before. -/
theorem canonical_formValue {p : String} (hp : Canonical p) : Canonical (formValue p) := by
  obtain ⟨cs, hcs, rfl⟩ := hp
  refine ⟨cs.map (List.map formChar), ?_, ?_⟩
  · intro c hc
    obtain ⟨d, hd, rfl⟩ := List.mem_map.mp hc
    exact plainName_map_formChar (hcs d hd)
  · cases cs with
    | nil => rfl
    | cons c cs =>
      refine String.toList_injective ?_
      rw [formValue, String.toList_ofList, toList_render_cons, List.map_cons, toList_render_cons,
        ← List.map_cons]
      exact slashed_map_formChar (c :: cs)

/-- The daemon gives this answer to the request for a remote listing, in whatever state. -/
def RepliesRemotely (L : Library) (q : PickerRequest) (r : Response) : Prop :=
  ∃ (c : Call) (st₁ st₂ : State L), c.route = q.route ∧ c.req.query = q.query ∧
    r = (Api.finish (Api.serve c st₁).2 st₂).2

/-- **A listing of the remote machine.** -/
theorem lists_of_repliesRemotely {s : Picker} (hssh : s.pickerSshUuid ≠ "") {p : String}
    (hp : p = "" ∨ Canonical p) {r : Response} (h : RepliesRemotely L (s.request p) r)
    (hok : r.status = .ok) : Lists remoteFolders (s.request p) r := by
  obtain ⟨⟨route, req, m⟩, st₁, st₂, hroute, hquery, hr⟩ := h
  obtain rfl : route = .sshBrowse s.pickerSshUuid := hroute.trans (if_pos hssh)
  have hpath : queryItemValue req "path" = formValue p := by
    rw [queryItemValue, hquery, path_request]
  rw [hr] at hok
  obtain ⟨lr, hlr, hlisting⟩ := Api.sshBrowse_listing hok
  -- What is listed is the path, or the root if none was asked for.
  obtain ⟨cs, hcs, htarget, hresolve⟩ : ∃ cs, (∀ c ∈ cs, PlainName c) ∧
      (if (formValue p).isEmpty then "/" else formValue p) = render cs ∧
      remoteFolders.resolve (formValue p) = render cs := by
    rcases hp with rfl | hp
    · exact ⟨[], by simp, rfl, rfl⟩
    · have hcanonical := canonical_formValue hp
      refine ⟨components (formValue p), hcanonical.plain, ?_, ?_⟩
      · rw [if_neg (by simpa using hcanonical.ne_empty), hcanonical.render_components]
      · rw [resolve_remoteFolders hcanonical, hcanonical.render_components]
  rw [hpath, htarget] at hlisting
  have hbody := hr.trans hlisting
  rw [Api.sshBrowseDone, if_neg (by simp [hlr])] at hbody
  have hwithin : Within remoteFolders.base (render cs) := hresolve ▸ remoteFolders.within _
  subst hbody
  constructor
  · rfl
  · rw [goal_request, hresolve, Folders.path_names (canonical_render hcs) hwithin]
    rfl
  · rw [goal_request, hresolve, ← parent_names (canonical_render hcs) hwithin]
    show Api.remoteParent (render cs) = if render cs = "/" then "/" else parentFolder (render cs)
    rw [remoteParent_render hcs, parentFolder, components_render hcs]
    split
    · next hroot =>
      rw [(render_eq_root_iff hcs).mp hroot]
      rfl
    · rfl

/-- **The picker follows a trail on a remote machine, too**, whatever happens there and to the
daemon meanwhile: every folder is listed as the path that was asked for. Here, too, no answer
to an earlier picker is under way when it is opened, and its first listing arrives before
anything is clicked. -/
theorem remote_picker_follows_trail {s : Picker} (hidle : s.requests = [])
    {mode uuid sshUuid : String} (hssh : sshUuid ≠ "") {files : Bool} {r : Response}
    (hok : r.status = .ok)
    (hr : RepliesRemotely L ((s.openPicker mode uuid sshUuid files).request "") r)
    {es : List PickerEvent} (hes : machine.Along (Used (RepliesRemotely L))
      (machine.run s (opening mode uuid sshUuid files r)) es) :
    OnTrail remoteFolders (machine.run s (opening mode uuid sshUuid files r ++ es))
      ((Trail.machine remoteFolders formValue).run {} (es.filterMap (move
        ((machine.run s (opening mode uuid sshUuid files r)).pickerPlaces.map Crumb.path)))).here :=
  follows hidle (fun p r hp hok hreplies => lists_of_repliesRemotely hssh hp hreplies hok)
    (by rfl) hok hr hes

theorem repliesRemotely_reply (st : State L) {s : Picker} {q : PickerRequest}
    (h : s.requests[0]? = some q) : RepliesRemotely L q (reply st s) := by
  obtain ⟨c, st₁, st₂, hroute, hquery, -, -, hr⟩ := replies_reply st h
  exact ⟨c, st₁, st₂, hroute, hquery, hr⟩

/-- A picker is opened on the files of a remote machine. -/
def remoteOpening : List PickerEvent :=
  opening "sshsrc" "" "s1" false (reply remoteState (openPicker {} "sshsrc" "" "s1" false))

/-- Then the folder `data` is opened and left again. -/
def remoteEvents : List PickerEvent :=
  let click := .activate ⟨"data", true⟩
  [click, .answered 0 (reply remoteState (machine.run {} (remoteOpening ++ [click]))), .up]

theorem remote_picker_follows_trail_demo :
    OnTrail remoteFolders (machine.run {} (remoteOpening ++ remoteEvents))
      ((Trail.machine remoteFolders formValue).run {} (remoteEvents.filterMap (move
        ((machine.run {} remoteOpening).pickerPlaces.map Crumb.path)))).here := by
  have hssh : "s1" ≠ "" := by decide
  have hok : (reply remoteState (openPicker {} "sshsrc" "" "s1" false)).status = .ok := by
    decide +kernel
  have hplain : PlainName "data".toList := by decide
  have hspace : ' ' ∉ (machine.run {} (remoteOpening ++ remoteEvents.take 2)).pickerPath.toList := by
    decide +kernel
  exact remote_picker_follows_trail rfl hssh hok (repliesRemotely_reply remoteState rfl)
    ⟨fun _ => hplain, fun q hq _ => repliesRemotely_reply remoteState hq, hspace, trivial⟩

end Picker

end TiBackup
