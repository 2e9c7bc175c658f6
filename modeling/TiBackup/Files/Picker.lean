import TiBackup.Lib.Trail
import TiBackup.Model.Picker

/-!
# TiBackup.Files.Picker

**Where the path picker goes.** The page puts paths together from what it is shown and asks
for them; the daemon answers with the canonical path of a folder, clamped to the base. Both
together are a walk along a trail (`Shows`): the picker is in the folder that the names of
the trail lead to, its crumbs are these names, and the button that goes up, the crumbs and
the enter key take names off or leave them, in whatever order the answers arrive.

It is all the same who lists the folders (`follows`). A path with a space is not asked for
as it is, so nothing is said of going back along one. The page does not tell the answers to
one picker from those to another, so nothing is said of a picker that is opened while answers
to an earlier one are under way, nor of one that is used before its first listing has come.
-/

namespace TiBackup

open Lib Lib.Machine Lib.Path

/-! ### Spellings -/

/-- A canonical path is `/` only if it has no names. -/
theorem render_eq_root_iff {cs : List (List Char)} (h : ∀ c ∈ cs, PlainName c) :
    render cs = "/" ↔ cs = [] := by
  constructor
  · intro hroot
    rw [← components_render h, hroot, components_root]
  · rintro rfl
    rfl

/-- What stands before the last slash of an entry. -/
def front (p : String) : String := if p = "/" then "" else p

theorem front_render {cs : List (List Char)} (h : ∀ c ∈ cs, PlainName c) :
    front (render cs) = String.ofList (slashed cs) := by
  rw [front]
  cases cs with
  | nil => rfl
  | cons c cs =>
    rw [if_neg fun hroot => by cases (render_eq_root_iff h).mp hroot]
    rfl

/-- An entry of a folder. -/
theorem render_concat {cs : List (List Char)} (h : ∀ c ∈ cs, PlainName c) (c : List Char) :
    render (cs ++ [c]) = front (render cs) ++ "/" ++ String.ofList c := by
  have hne : (cs ++ [c]).isEmpty = false := by simp
  rw [front_render h, render, hne]
  refine String.toList_injective ?_
  simp [slashed_concat]

theorem components_slashed {cs : List (List Char)} (h : ∀ c ∈ cs, PlainName c) :
    components (String.ofList (slashed cs)) = cs := by
  cases cs with
  | nil => exact components_empty
  | cons c cs =>
    have hrender := components_render h
    rwa [render, if_neg (by simp)] at hrender

/-- The names of a path without the slash it begins with. -/
theorem components_unrooted {c : List Char} {cs : List (List Char)}
    (h : ∀ d ∈ c :: cs, PlainName d) :
    components (String.ofList (c ++ slashed cs)) = c :: cs := by
  have hslash : ∀ d ∈ cs, '/' ∉ d := fun d hd => (h d (by simp [hd])).noSlash
  rw [components, pieces, String.toList_ofList, splitOn_slashed (h c (by simp)).noSlash hslash]
  refine List.filter_eq_self.mpr ?_
  intro d hd
  simpa using (h d hd).nonempty

/-- A path below another one begins with it, and the rest are the names in between. -/
theorem rest_render {cs ds : List (List Char)} (hcs : ∀ c ∈ cs, PlainName c)
    (hds : ∀ d ∈ ds, PlainName d) (hne : ds ≠ []) :
    (render cs).toList <+: (render (cs ++ ds)).toList ∧
      components (String.ofList ((render (cs ++ ds)).toList.drop
        (if render cs = "/" then 1 else (render cs).length))) = ds := by
  cases cs with
  | nil =>
    obtain ⟨d, ds, rfl⟩ := List.exists_cons_of_ne_nil hne
    rw [List.nil_append, toList_render_cons, slashed_cons]
    exact ⟨⟨_, rfl⟩, components_unrooted hds⟩
  | cons c cs =>
    have hroot : render (c :: cs) ≠ "/" := fun h => by cases (render_eq_root_iff hcs).mp h
    have hlength : (render (c :: cs)).length = (slashed (c :: cs)).length := by
      rw [← String.length_toList, toList_render_cons]
    rw [List.cons_append, toList_render_cons, toList_render_cons, ← List.cons_append, slashed_append,
      if_neg hroot, hlength, List.drop_left]
    exact ⟨List.prefix_append _ _, components_slashed hds⟩

/-- The characters of a path are slashes and those of its names. -/
theorem mem_render {cs : List (List Char)} {x : Char} :
    x ∈ (render cs).toList ↔ (x = '/' ∨ ∃ c ∈ cs, x ∈ c) := by
  cases cs with
  | nil => simp [render]
  | cons c cs =>
    rw [toList_render_cons, slashed, List.mem_flatMap]
    constructor
    · rintro ⟨d, hd, hx⟩
      rcases List.mem_cons.mp hx with rfl | hx
      · exact .inl rfl
      · exact .inr ⟨d, hd, hx⟩
    · rintro (rfl | ⟨d, hd, hx⟩)
      · exact ⟨c, by simp, by simp⟩
      · exact ⟨d, hd, by simp [hx]⟩

theorem formValue_of_noSpace {p : String} (h : ' ' ∉ p.toList) : formValue p = p := by
  refine String.toList_injective ?_
  rw [formValue, String.toList_ofList]
  refine (List.map_congr_left fun c hc => if_neg ?_).trans (List.map_id _)
  rintro rfl
  exact h hc

/-- The page's way to put an entry behind a folder. -/
theorem pickerEnter_render {cs : List (List Char)} (h : ∀ c ∈ cs, PlainName c) (name : String) :
    WebApp.pickerEnter (render cs) name = render (cs ++ [name.toList]) := by
  rw [render_concat h, String.ofList_toList, WebApp.pickerEnter]
  congr 2
  rw [front_render h]
  cases cs using List.reverseRecOn with
  | nil => rfl
  | append_singleton cs c =>
    have hlast : (slashed (cs ++ [c])).getLast? ≠ some '/' := by
      have hc := h c (by simp)
      rw [slashed_concat, List.getLast?_append_of_ne_nil _ (by simp),
        List.getLast?_cons_of_ne_nil hc.nonempty]
      exact fun hslash => hc.noSlash (List.mem_of_getLast? hslash)
    have hlist : (render (cs ++ [c])).toList = slashed (cs ++ [c]) := by
      rw [render, if_neg (by simp), String.toList_ofList]
    rw [hlist, if_neg hlast]

/-! ### Crumbs -/

namespace Picker

/-- What the first crumb is called. -/
def label (base : String) : String :=
  if base = "/" then "/" else ((components base).getLast?.map String.ofList).getD base

/-- The crumbs of a trail: one for the base, and one for each name. -/
def crumbs (F : Folders) (t : List (List Char)) : List Crumb :=
  ⟨label F.base, F.base⟩ :: t.mapIdx fun i n => ⟨String.ofList n, F.path (t.take (i + 1))⟩

variable {F : Folders} {t u : List (List Char)}

/-- The crumbs lead to the folders on the way. -/
theorem path_crumbs (i : Nat) : (crumbs F t)[i]?.map Crumb.path =
    if i ≤ t.length then some (F.path (t.take i)) else none := by
  cases i with
  | zero => simp [crumbs]
  | succ i =>
    rw [crumbs, List.getElem?_cons_succ, List.getElem?_mapIdx, Option.map_map]
    by_cases hi : i < t.length
    · rw [List.getElem?_eq_getElem hi, if_pos (by omega)]
      rfl
    · rw [List.getElem?_eq_none (Nat.le_of_not_lt hi), if_neg (by omega)]
      rfl

theorem crumbsFrom_eq (hu : ∀ n ∈ u, PlainName n) (ht : ∀ n ∈ t, PlainName n) :
    crumbsFrom (front (F.path u)) t =
      t.mapIdx fun i n => ⟨String.ofList n, F.path (u ++ t.take (i + 1))⟩ := by
  induction t generalizing u with
  | nil => rfl
  | cons n t ih =>
    have hun : ∀ m ∈ u ++ [n], PlainName m := by
      intro m hm
      rcases List.mem_append.mp hm with hm | hm
      · exact hu m hm
      · exact ht m (by simp [List.mem_singleton.mp hm])
    -- The path of a crumb is what the next one begins with.
    have hpath : front (F.path u) ++ "/" ++ String.ofList n = F.path (u ++ [n]) := by
      rw [Folders.path, Folders.path, ← List.append_assoc, render_concat (Folders.plain_append hu)]
    have hfront : front (F.path (u ++ [n])) = F.path (u ++ [n]) := by
      rw [front, if_neg]
      rw [Folders.path, render_eq_root_iff (Folders.plain_append hun)]
      simp
    have hrest := ih hun fun m hm => ht m (by simp [hm])
    rw [hfront] at hrest
    simp only [crumbsFrom, hpath, hrest, List.mapIdx_cons, List.append_assoc]
    rfl

/-- **The crumbs of a folder.** -/
theorem pickerCrumbs_eq {s : Picker} (ht : ∀ n ∈ t, PlainName n) (hbase : s.pickerBase = F.base)
    (hpath : s.pickerPath = F.path t) : s.pickerCrumbs = crumbs F t := by
  have hne : F.base.isEmpty = false := by simpa using F.canonicalBase.ne_empty
  have hne' : (F.path t).isEmpty = false := by simpa using (Folders.canonical_path ht).ne_empty
  have hsame : F.path t = F.base ↔ t = [] := by
    rw [← Folders.path_nil (F := F)]
    exact ⟨Folders.path_inj ht (by simp), fun h => by rw [h]⟩
  unfold pickerCrumbs
  simp only [hbase, hpath, hne, hne', Bool.false_eq_true, if_false]
  rw [crumbs, label]
  congr 1
  by_cases hnil : t = []
  · rw [if_neg fun h => h.1 (hsame.mpr hnil), hnil]
    rfl
  · have hrest := rest_render F.canonicalBase.plain ht hnil
    rw [F.canonicalBase.render_components] at hrest
    have hcrumbs := crumbsFrom_eq (F := F) (u := []) (by simp) ht
    rw [Folders.path_nil, front] at hcrumbs
    rw [if_pos ⟨fun h => hnil (hsame.mp h), List.isPrefixOf_iff_prefix.mpr hrest.1⟩]
    exact (congrArg _ hrest.2).trans hcrumbs

/-! ### The picker on its trail -/

/-- Where the answer to a request leads, if there is a listing. -/
def goal (F : Folders) (q : PickerRequest) : List (List Char) :=
  F.names (F.resolve ((q.query.lookup "path").getD ""))

/-- The answer to a request is the listing of the folder that it resolves to. -/
structure Lists (F : Folders) (q : PickerRequest) (r : Response) : Prop where
  base : (r.body.toObject.get "base").toString = F.base
  path : (r.body.toObject.get "path").toString = F.path (goal F q)
  parent : (r.body.toObject.get "parent").toString = F.path (goal F q).dropLast

/-- The picker shows the folder that the trail leads to, and waits for the answers that are
under way. Requests are made by `ask`, and there are buttons for `places`. -/
structure Shows (F : Folders) (ask : String → PickerRequest) (places : List String) (s : Picker)
    (t : Trail) : Prop where
  base : s.pickerBase = F.base
  path : s.pickerPath = F.path t.here
  parent : s.pickerParent = F.path t.here.dropLast
  sound : t.Sound F
  asks : s.request = ask
  places : s.pickerPlaces.map Crumb.path = places
  requests : ∀ q ∈ s.requests, ∃ p, (p = "" ∨ Canonical p) ∧ q = ask p
  asked : t.asked = s.requests.map (goal F)

/-- What an event does about the trail. -/
def move (places : List String) : PickerEvent → Option Move
  | .up => some .up
  | .crumb i => some (.back i)
  | .place i => places[i]?.map .visit
  | .activate e => if e.isDir then some (.enter e.name.toList) else none
  | .enterKey => some .again
  | .answered i r => some (if r.status = .ok then .arrived i else .failed i)
  | .failed i => some (.failed i)
  | _ => none

/-- The picker is used without being opened for something else or typed into, no path is
shown with a space when the picker goes back along it, and entries have names of entries.
What is said of the answers is `listed`. -/
def Used (listed : PickerRequest → Response → Prop) (s : Picker) : PickerEvent → Prop
  | .openPicker _ _ _ _ | .type _ => False
  | .up | .crumb _ | .enterKey => ' ' ∉ s.pickerPath.toList
  | .activate e => e.isDir = true → PlainName e.name.toList
  | .answered i r => ∀ q, s.requests[i]? = some q → r.status = .ok → listed q r
  | _ => True

variable {ask : String → PickerRequest} {places : List String} {s s' : Picker} {w : Trail}

/-- The path the daemon reads. -/
theorem path_request (s : Picker) (p : String) :
    ((s.request p).query.lookup "path").getD "" = formValue p := by
  unfold request
  split <;> rfl

theorem goal_request (s : Picker) (p : String) :
    goal F (s.request p) = F.names (F.resolve (formValue p)) := by
  rw [goal, path_request]

/-- What is shown and asked for does not depend on the rest of the picker. -/
theorem Shows.congr (h : Shows F ask places s w) (hbase : s'.pickerBase = s.pickerBase)
    (hpath : s'.pickerPath = s.pickerPath) (hparent : s'.pickerParent = s.pickerParent)
    (hasks : s'.request = s.request) (hplaces : s'.pickerPlaces = s.pickerPlaces)
    (hrequests : s'.requests = s.requests) : Shows F ask places s' w where
  base := hbase.trans h.base
  path := hpath.trans h.path
  parent := hparent.trans h.parent
  sound := h.sound
  asks := hasks.trans h.asks
  places := hplaces ▸ h.places
  requests := hrequests ▸ h.requests
  asked := hrequests ▸ h.asked

theorem Shows.choose (h : Shows F ask places s w) (name : String) :
    Shows F ask places (s.pickerChoose name).1 w := h.congr rfl rfl rfl rfl rfl rfl

/-- A path is asked for. -/
theorem Shows.load (h : Shows F ask places s w) {p : String} (hp : p = "" ∨ Canonical p)
    (hu : F.Listed u) (hgoal : F.names (F.resolve (formValue p)) = u) :
    Shows F ask places (s.pickerLoad p) (w.ask u) where
  base := h.base
  path := h.path
  parent := h.parent
  sound := h.sound.ask hu
  asks := h.asks
  places := h.places
  requests q hq := by
    rcases List.mem_append.mp hq with hq | hq
    · exact h.requests q hq
    · exact ⟨p, hp, by rw [List.mem_singleton.mp hq, h.asks]⟩
  asked := by
    rw [Trail.ask, pickerLoad, List.map_append, h.asked, List.map_singleton, goal_request, hgoal]

/-- A folder on the trail is asked for. -/
theorem Shows.back (h : Shows F ask places s w) (hspace : ' ' ∉ s.pickerPath.toList)
    (hu : u <+: w.here) : Shows F ask places (s.pickerLoad (F.path u)) (w.ask u) := by
  have hlisted := h.sound.here.of_prefix hu
  refine h.load (.inr (Folders.canonical_path hlisted.plain)) hlisted ?_
  have hnone : ' ' ∉ (F.path u).toList := by
    rw [h.path] at hspace
    simp only [Folders.path, mem_render, not_or] at hspace ⊢
    refine ⟨hspace.1, ?_⟩
    rintro ⟨c, hc, hmem⟩
    refine hspace.2 ⟨c, ?_, hmem⟩
    rcases List.mem_append.mp hc with hc | hc
    · exact List.mem_append_left _ hc
    · exact List.mem_append_right _ (hu.subset hc)
  rw [formValue_of_noSpace hnone, hlisted.names_resolve]

/-- An answer arrives. -/
theorem Shows.arrived (h : Shows F ask places s w) {i : Nat} {q : PickerRequest}
    (hq : s.requests[i]? = some q) {r : Response} (hok : r.status = .ok) (hlists : Lists F q r) :
    Shows F ask places ({ s with requests := s.requests.eraseIdx i }.pickerLoaded r)
      { here := goal F q, asked := w.asked.eraseIdx i } := by
  rw [pickerLoaded, if_neg (by simpa using hok)]
  have hmem : goal F q ∈ w.asked := by
    rw [h.asked]
    exact List.mem_map_of_mem (List.mem_of_getElem? hq)
  exact {
    base := hlists.base
    path := hlists.path
    parent := hlists.parent
    sound := ⟨h.sound.asked _ hmem, fun v hv => h.sound.asked v (List.mem_of_mem_eraseIdx hv)⟩
    asks := h.asks
    places := by
      rw [← h.places]
      unfold pickerPlaces
      rw [h.base, ← hlists.base]
    requests := fun q' hq' => h.requests q' (List.mem_of_mem_eraseIdx hq')
    asked := by
      rw [h.asked]
      exact List.eraseIdx_map _ _ _ }

/-- There is no listing to wait for any longer. -/
theorem Shows.failed (h : Shows F ask places s w) (i : Nat) :
    Shows F ask places { s with requests := s.requests.eraseIdx i }
      { w with asked := w.asked.eraseIdx i } where
  base := h.base
  path := h.path
  parent := h.parent
  sound := ⟨h.sound.here, fun v hv => h.sound.asked v (List.mem_of_mem_eraseIdx hv)⟩
  asks := h.asks
  places := h.places
  requests q hq := h.requests q (List.mem_of_mem_eraseIdx hq)
  asked := by
    rw [h.asked]
    exact List.eraseIdx_map _ _ _

/-- All places are canonical paths. -/
theorem canonical_pickerPlaces (hbase : Canonical s.pickerBase) :
    ∀ p ∈ s.pickerPlaces.map Crumb.path, Canonical p := by
  have hname : ∀ n : String, PlainName n.toList → Canonical ("/" ++ n) := by
    intro n hn
    have hrender : render [n.toList] = "/" ++ n := by
      rw [← List.nil_append [n.toList], render_concat (by simp), String.ofList_toList]
      rfl
    exact hrender ▸ canonical_render (by simpa using hn)
  unfold pickerPlaces
  split
  · simpa using canonical_root
  · split
    · simpa using hbase
    · split
      · simpa using hbase
      · simp only [List.map_cons, List.map_nil, List.forall_mem_cons]
        exact ⟨canonical_root, hname "root" (by decide), hname "media" (by decide), hname "mnt" (by decide),
          hname "etc" (by decide), by simp⟩

/-- The button for the folder above. -/
theorem Shows.up (h : Shows F ask places s w) (hspace : ' ' ∉ s.pickerPath.toList) :
    Shows F ask places (machine.next s .up) ((Trail.machine F formValue).next w .up) := by
  show Shows F ask places (if s.pickerPath = s.pickerBase then s else s.pickerLoad s.pickerParent)
    (if w.here = [] then w else w.ask w.here.dropLast)
  have hsame : s.pickerPath = s.pickerBase ↔ w.here = [] := by
    rw [h.path, h.base, ← Folders.path_nil (F := F)]
    exact ⟨Folders.path_inj h.sound.here.plain (by simp), fun hnil => by rw [hnil]⟩
  by_cases hbase : s.pickerPath = s.pickerBase
  · rwa [if_pos hbase, if_pos (hsame.mp hbase)]
  · rw [if_neg hbase, if_neg fun hnil => hbase (hsame.mpr hnil), h.parent]
    exact h.back hspace (List.dropLast_prefix _)

/-- A crumb leads to a folder the trail has passed. -/
theorem Shows.crumb (h : Shows F ask places s w) (hspace : ' ' ∉ s.pickerPath.toList) (i : Nat) :
    Shows F ask places (machine.next s (.crumb i))
      ((Trail.machine F formValue).next w (.back i)) := by
  show Shows F ask places (s.follow s.pickerCrumbs i)
    (if i ≤ w.here.length then w.ask (w.here.take i) else w)
  have hpath := path_crumbs (F := F) (t := w.here) i
  rw [pickerCrumbs_eq h.sound.here.plain h.base h.path, follow]
  cases hc : (crumbs F w.here)[i]? with
  | none =>
    rw [hc, Option.map_none] at hpath
    rw [if_neg fun hi => by rw [if_pos hi] at hpath; cases hpath]
    exact h
  | some c =>
    rw [hc, Option.map_some] at hpath
    split at hpath
    · next hi =>
      show Shows F ask places (s.pickerLoad c.path) _
      rw [if_pos hi, Option.some.inj hpath]
      exact h.back hspace (List.take_prefix _ _)
    · cases hpath

theorem Shows.place (h : Shows F ask places s w) (i : Nat) :
    Shows F ask places (machine.next s (.place i))
      ((places[i]?.map Move.visit).elim w ((Trail.machine F formValue).next w)) := by
  show Shows F ask places (s.follow s.pickerPlaces i) _
  have hplace : places[i]? = s.pickerPlaces[i]?.map Crumb.path := by
    rw [← h.places, List.getElem?_map]
  rw [follow, hplace]
  cases hc : s.pickerPlaces[i]? with
  | none => exact h
  | some c =>
    have hcanonical : Canonical c.path := by
      have hbase : Canonical s.pickerBase := h.base ▸ F.canonicalBase
      exact canonical_pickerPlaces hbase _ (List.mem_map_of_mem (List.mem_of_getElem? hc))
    exact h.load (.inr hcanonical) (Folders.listed_resolve _) rfl

/-- A folder is entered, a file may be chosen. -/
theorem Shows.activate (h : Shows F ask places s w) {e : PickerEntry}
    (hname : e.isDir = true → PlainName e.name.toList) :
    Shows F ask places (machine.next s (.activate e))
      ((if e.isDir then some (Move.enter e.name.toList) else none).elim w
        ((Trail.machine F formValue).next w)) := by
  show Shows F ask places (s.pickerActivate e).1 _
  rw [pickerActivate]
  by_cases hdir : e.isDir = true
  · rw [if_pos hdir, if_pos hdir, h.path, Folders.path, pickerEnter_render
      (Folders.plain_append h.sound.here.plain), List.append_assoc]
    have hplain : ∀ n ∈ w.here ++ [e.name.toList], PlainName n := by
      intro n hn
      rcases List.mem_append.mp hn with hn | hn
      · exact h.sound.here.plain n hn
      · rw [List.mem_singleton.mp hn]
        exact hname hdir
    exact h.load (.inr (Folders.canonical_path hplain)) (Folders.listed_resolve _) rfl
  · rw [if_neg hdir, if_neg hdir]
    split
    · exact h.choose e.name
    · exact h

/-- What is shown stays when something is chosen. -/
theorem Shows.primary (h : Shows F ask places s w) :
    Shows F ask places s.pickerPrimary.1 w := by
  rw [pickerPrimary]
  split
  · split
    · split
      · exact h.choose _
      · exact h
    · exact h.choose _
  · split
    · exact h
    · exact h.choose _

/-- An answer arrives, if there was a request. -/
theorem Shows.answered (h : Shows F ask places s w) {i : Nat} {r : Response}
    (hlists : ∀ q, s.requests[i]? = some q → r.status = .ok → Lists F q r) :
    Shows F ask places (machine.next s (.answered i r)) ((Trail.machine F formValue).next w
      (if r.status = .ok then .arrived i else .failed i)) := by
  show Shows F ask places (if i < s.requests.length then
      ({ s with requests := s.requests.eraseIdx i }.pickerLoaded r, none) else (s, none)).1
    (Trail.step F formValue w (if r.status = .ok then .arrived i else .failed i))
  have hgoal : w.asked[i]? = s.requests[i]?.map (goal F) := by
    rw [h.asked, List.getElem?_map]
  by_cases hi : i < s.requests.length
  · rw [if_pos hi]
    have hq := List.getElem?_eq_getElem hi
    by_cases hok : r.status = .ok
    · rw [if_pos hok, Trail.step, hgoal, hq, Option.map_some]
      exact h.arrived hq hok (hlists _ hq hok)
    · rw [if_neg hok, pickerLoaded, if_pos hok]
      exact h.failed i
  · rw [if_neg hi]
    have hnone := List.getElem?_eq_none (Nat.le_of_not_lt hi)
    split
    · rw [Trail.step, hgoal, hnone, Option.map_none]
      exact h
    · rw [Trail.step, List.eraseIdx_of_length_le]
      · exact h
      · rw [h.asked, List.length_map]
        exact Nat.le_of_not_lt hi

/-- **One event.** -/
theorem Shows.step (h : Shows F ask places s w) {e : PickerEvent} (he : Used (Lists F) s e) :
    Shows F ask places (machine.next s e)
      (((Trail.machine F formValue).seen (move places)).next w e) := by
  rw [next_seen]
  cases e with
  | openPicker | type => exact he.elim
  | select name => exact h.congr rfl rfl rfl rfl rfl rfl
  | cancel => exact h.congr rfl rfl rfl rfl rfl rfl
  | up => exact h.up he
  | crumb i => exact h.crumb he i
  | place i => exact h.place i
  | activate e => exact h.activate he
  | enterKey =>
    show Shows F ask places (s.pickerLoad s.pickerPath) (w.ask w.here)
    rw [h.path]
    exact h.back he List.prefix_rfl
  | primary => exact h.primary
  | answered i r => exact h.answered he
  | failed i => exact h.failed i

/-! ### Runs -/

/-- What a picker that is on a trail shows, and what can be chosen. -/
structure OnTrail (F : Folders) (s : Picker) (t : List (List Char)) : Prop where
  base : s.pickerBase = F.base
  path : s.pickerPath = F.path t
  crumbs : s.pickerCrumbs = crumbs F t
  parent : s.pickerParent = F.path t.dropLast
  choice : ∀ e p, machine.out s e = some (some p) → p = F.path t ∨
    ∃ x, (e = .activate x ∨ x ∈ s.pickerEntries) ∧ p = F.path (t ++ [x.name.toList])

/-- The folder is chosen, or the entry with a name. -/
theorem choice_of_pickerChoose {F : Folders} {s : Picker} {t : List (List Char)}
    (ht : ∀ n ∈ t, PlainName n) (hpath : s.pickerPath = F.path t) {name p : String}
    (h : (s.pickerChoose name).2 = some (some p)) :
    p = F.path t ∨ name ≠ "" ∧ p = F.path (t ++ [name.toList]) := by
  rw [pickerChoose, resolve] at h
  dsimp only at h
  split at h
  · obtain rfl := Option.some.inj (Option.some.inj h)
    split
    · next hne =>
      refine .inr ⟨hne, ?_⟩
      rw [hpath, Folders.path, pickerEnter_render (Folders.plain_append ht), List.append_assoc]
      rfl
    · exact .inl hpath
  · cases h

/-- The button chooses the folder or the entry that is selected. -/
theorem choice_of_pickerPrimary {F : Folders} {s : Picker} {t : List (List Char)}
    (ht : ∀ n ∈ t, PlainName n) (hpath : s.pickerPath = F.path t) {p : String}
    (h : s.pickerPrimary.2 = some (some p)) :
    p = F.path t ∨ ∃ x ∈ s.pickerEntries, p = F.path (t ++ [x.name.toList]) := by
  have hhere : (s.pickerChoose "").2 = some (some p) → p = F.path t := fun h =>
    (choice_of_pickerChoose ht hpath h).resolve_right fun hname => hname.1 rfl
  rw [pickerPrimary] at h
  cases hsel : s.pickerSelEntry with
  | none =>
    rw [hsel] at h
    dsimp only at h
    split at h
    · cases h
    · exact .inl (hhere h)
  | some x =>
    have hmem : x ∈ s.pickerEntries := List.mem_of_find?_eq_some hsel
    rw [hsel] at h
    dsimp only at h
    split at h
    · split at h
      · exact (choice_of_pickerChoose ht hpath h).imp_right fun hp => ⟨x, hmem, hp.2⟩
      · cases h
    · split at h
      · exact (choice_of_pickerChoose ht hpath h).imp_right fun hp => ⟨x, hmem, hp.2⟩
      · exact .inl (hhere h)

/-- What is chosen is the folder that is shown, or an entry of it. -/
theorem choice_of_path {F : Folders} {s : Picker} {t : List (List Char)}
    (ht : ∀ n ∈ t, PlainName n) (hpath : s.pickerPath = F.path t) {e : PickerEvent} {p : String}
    (h : machine.out s e = some (some p)) : p = F.path t ∨
      ∃ x, (e = .activate x ∨ x ∈ s.pickerEntries) ∧ p = F.path (t ++ [x.name.toList]) := by
  cases e with
  | activate x =>
    have h : (s.pickerActivate x).2 = some (some p) := h
    rw [pickerActivate] at h
    split at h
    · cases h
    · split at h
      · exact (choice_of_pickerChoose ht hpath h).imp_right fun hp => ⟨x, .inl rfl, hp.2⟩
      · cases h
  | primary =>
    refine (choice_of_pickerPrimary ht hpath h).imp_right ?_
    exact fun ⟨x, hmem, hp⟩ => ⟨x, .inr hmem, hp⟩
  | cancel =>
    have h : (if s.pickerResolve then some none else none : Option (Option String)) =
      some (some p) := h
    split at h
    · cases h
    · cases h
  | answered i r =>
    have h : (if i < s.requests.length then
        ({ s with requests := s.requests.eraseIdx i }.pickerLoaded r, none) else (s, none)).2 =
      some (some p) := h
    split at h
    · cases h
    · cases h
  | _ => cases h

theorem Used.imp {listed listed' : PickerRequest → Response → Prop} {s : Picker} {e : PickerEvent}
    (h : Used listed s e)
    (himp : ∀ q ∈ s.requests, ∀ r, r.status = .ok → listed q r → listed' q r) :
    Used listed' s e := by
  cases e with
  | answered i r =>
    exact fun q hq hok => himp q (List.mem_of_getElem? hq) r hok (h q hq hok)
  | _ => exact h

/-- The picker is opened, and its first listing arrives. -/
def opening (mode uuid sshUuid : String) (files : Bool) (r : Response) : List PickerEvent :=
  [.openPicker mode uuid sshUuid files, .answered 0 r]

theorem Shows.used {F : Folders} {ask : String → PickerRequest} {places : List String}
    {listed : PickerRequest → Response → Prop} {s : Picker} {w : Trail} {e : PickerEvent}
    (h : Shows F ask places s w) (hlists : ∀ p r, p = "" ∨ Canonical p → r.status = .ok →
      listed (ask p) r → Lists F (ask p) r) (he : Used listed s e) :
    Shows F ask places (machine.next s e)
      (((Trail.machine F formValue).seen (move places)).next w e) := by
  refine h.step (he.imp ?_)
  intro q hq r hok hlisted
  obtain ⟨p, hp, rfl⟩ := h.requests q hq
  exact hlists p r hp hok hlisted

theorem Shows.run {F : Folders} {ask : String → PickerRequest} {places : List String}
    {listed : PickerRequest → Response → Prop} {s : Picker} {w : Trail} {es : List PickerEvent}
    (h : Shows F ask places s w) (hlists : ∀ p r, p = "" ∨ Canonical p → r.status = .ok →
      listed (ask p) r → Lists F (ask p) r) (hes : machine.Along (Used listed) s es) :
    Shows F ask places (machine.run s es)
      ((Trail.machine F formValue).run w (es.filterMap (move places))) := by
  have hstep : ∀ s w e, Shows F ask places s w → Used listed s e → Shows F ask places
      (machine.next s e) (((Trail.machine F formValue).seen (move places)).next w e) :=
    fun _ _ _ h he => h.used hlists he
  have hrun := related_run hstep h hes
  rwa [run_seen] at hrun

theorem Shows.onTrail {F : Folders} {ask : String → PickerRequest} {places : List String}
    {s : Picker} {w : Trail} (h : Shows F ask places s w) : OnTrail F s w.here where
  base := h.base
  path := h.path
  crumbs := pickerCrumbs_eq h.sound.here.plain h.base h.path
  parent := h.parent
  choice _ _ := choice_of_path h.sound.here.plain h.path

/-- The first listing is one of the base. -/
theorem shows_opening {F : Folders} {s : Picker} (hidle : s.requests = [])
    {mode uuid sshUuid : String} {files : Bool} (hempty : F.resolve "" = F.base) {r : Response}
    (hok : r.status = .ok) (hlists : Lists F ((s.openPicker mode uuid sshUuid files).request "") r) :
    Shows F (s.openPicker mode uuid sshUuid files).request
      ((machine.run s (opening mode uuid sshUuid files r)).pickerPlaces.map Crumb.path)
      (machine.run s (opening mode uuid sshUuid files r)) {} := by
  have hgoal : goal F ((s.openPicker mode uuid sshUuid files).request "") = [] := by
    have hform : formValue "" = "" := rfl
    rw [goal_request, hform, hempty, Folders.names, List.drop_length]
  have hlisted : F.Listed [] := by
    rw [← hgoal, goal_request]
    exact Folders.listed_resolve _
  have hrequests : (s.openPicker mode uuid sshUuid files).requests =
      [(s.openPicker mode uuid sshUuid files).request ""] := by
    rw [openPicker, pickerLoad, hidle]
    rfl
  have hrun : machine.run s (opening mode uuid sshUuid files r) =
      { s.openPicker mode uuid sshUuid files with requests := [] }.pickerLoaded r := by
    rw [opening, run_cons, run_cons, run_nil]
    show (if 0 < (s.openPicker mode uuid sshUuid files).requests.length then
      ({ s.openPicker mode uuid sshUuid files with
          requests := (s.openPicker mode uuid sshUuid files).requests.eraseIdx 0 }.pickerLoaded r,
        none) else (s.openPicker mode uuid sshUuid files, none)).1 = _
    rw [hrequests]
    rfl
  rw [hrun, pickerLoaded, if_neg (by simpa using hok)]
  exact {
    base := hlists.base
    path := by rw [← hgoal]; exact hlists.path
    parent := by rw [← hgoal]; exact hlists.parent
    sound := ⟨hlisted, by simp⟩
    asks := rfl
    places := rfl
    requests := by simp
    asked := rfl }

/-- **A picker that was opened follows its trail**, if its answers are listings. It is opened
when no answer to an earlier picker is under way, and nothing is clicked before its first
listing arrives (`opening`). -/
theorem follows {F : Folders} {listed : PickerRequest → Response → Prop} {s : Picker}
    (hidle : s.requests = []) {mode uuid sshUuid : String} {files : Bool}
    (hlists : ∀ p r, p = "" ∨ Canonical p → r.status = .ok →
      listed ((s.openPicker mode uuid sshUuid files).request p) r →
      Lists F ((s.openPicker mode uuid sshUuid files).request p) r)
    (hempty : F.resolve "" = F.base) {r : Response} (hok : r.status = .ok)
    (hr : listed ((s.openPicker mode uuid sshUuid files).request "") r) {es : List PickerEvent}
    (hes : machine.Along (Used listed) (machine.run s (opening mode uuid sshUuid files r)) es) :
    OnTrail F (machine.run s (opening mode uuid sshUuid files r ++ es))
      ((Trail.machine F formValue).run {} (es.filterMap (move
        ((machine.run s (opening mode uuid sshUuid files r)).pickerPlaces.map Crumb.path)))).here := by
  have hstart := shows_opening hidle hempty hok (hlists "" r (.inl rfl) hok hr)
  rw [run_append]
  exact (hstart.run hlists hes).onTrail

end Picker

end TiBackup
