import TiBackup.Model.PbsEditor
import TiBackup.Model.Reference
import TiBackup.Stores.Frame

/-!
# TiBackup.Stores.PinnedFingerprint

**What a pinned certificate is replaced by.** The fingerprint of a PBS server goes from the
store into the form and from the form into the store; between the two it may be typed over,
and `testPbs` puts the certificate that was presented in its place.

Every copy of the fingerprint that is on its way (`copies`: in the form, in an answer to an
open, in a save) is the stored one, or was typed, or was reported as verified. So the store
changes to nothing else (`pinned_fingerprint_kept`), as long as (`Careful`)

* the form of the server takes no certificate from a test that does not report it as
  verified, which `testPbs` does not look at;
* a save that replaces the fingerprint finds no copy of the old one still on its way.
-/

namespace TiBackup

open Lib Lib.Machine

variable {L : Library}

namespace PbsEditor

/-- The fingerprint the daemon has stored for a server. -/
def stored (s : PbsEditor L) (u : String) : Option String :=
  (Api.getPbsByUuid s.daemon u).map PBServer.fingerprint

/-- It was typed, or a test reported it as verified. -/
def Trusted (s : PbsEditor L) (x : String) : Prop := x ∈ s.typed ∨ x ∈ s.verified

/-- The fingerprint of the server, in the fields of a form. -/
def pinOf (u : String) (o : Json.Fields) : Option String :=
  if (o.get "uuid").toString = u then some (o.get "fingerprint").toString else none

/-- The fingerprint of the server a request brings along: from the daemon that answered an
open, or to the daemon that has not served a save. -/
def carried (u : String) (r : PbsRequest) : Option String :=
  match r.origin, r.reply with
  | .editPbs, some (.now a) => if a.status = .ok then pinOf u a.body.toObject else none
  | .savePbs, none =>
    if r.route = .putPbs u then some ((parseBody r.req).get "fingerprint").toString else none
  | _, _ => none

/-- The fingerprints of the server on their way. -/
def copies (s : PbsEditor L) (u : String) : List String :=
  (pinOf u s.pbsForm).toList ++ s.requests.filterMap (carried u)

/-- The test succeeded, and there is a certificate to put into the form. -/
def Captures (a : Response) : Prop :=
  a.status = .ok ∧ (a.body.toObject.get "ok").toBool = true ∧
    (a.body.toObject.get "fingerprint").toString ≠ ""

/-- A step that stores no other fingerprint for the server than one that was typed or
verified, and that leaves the one in the form alone if it is a test that was answered with
`verified: false`. -/
structure PinKept (u : String) (s : PbsEditor L) (e : PbsEvent) : Prop where
  stored : ((machine L).next s e).stored u = s.stored u ∨
    ∃ x, ((machine L).next s e).stored u = some x ∧ ((machine L).next s e).Trusted x
  form : ∀ id r a, e = .answer id → s.find id = some r → r.origin = .testPbs →
    r.reply = some (.now a) → a.body.toObject.get "verified" = .bool false → s.text "uuid" = u →
      ((machine L).next s e).text "fingerprint" = s.text "fingerprint"

/-- A certificate that goes into the form of the server is reported as verified; and when a
save that replaces its fingerprint is served, no copy of the old one is on its way. -/
def Careful (u : String) (s : PbsEditor L) : PbsEvent → Prop
  | .answer id => ∀ r ∈ s.find id, ∀ a ∈ answerOf r, r.origin = .testPbs → s.text "uuid" = u →
    Captures a → (a.body.toObject.get "verified").toBool = true
  | .serve id _ => ∀ r ∈ s.find id, r.origin = .savePbs → ∀ x ∈ carried u r,
    s.stored u ≠ some x → ∀ y ∈ s.copies u, s.stored u = some y → s.Trusted y
  | _ => True

/-! ### The invariant -/

/-- What each function sends, and what it can be answered. -/
def Sent (r : PbsRequest) : Prop :=
  match r.origin with
  | .editPbs => ∃ uuid, uuid ≠ "" ∧ r.route = .getPbs uuid ∧ ∀ reply, r.reply = some reply →
    ∃ a, reply = .now a ∧ (a.status = .ok → (a.body.toObject.get "uuid").toString ≠ "")
  | .savePbs => ∃ uuid, r.route = .putPbs uuid
  | .testPbs => r.route = .pbsTest

/-- It is stored, or was typed or verified. -/
def Known (s : PbsEditor L) (u x : String) : Prop := s.stored u = some x ∨ s.Trusted x

/-- The invariant of the editor. -/
structure Traced (s : PbsEditor L) (u : String) : Prop where
  copies : u ≠ "" → ∀ x ∈ s.copies u, s.Known u x
  opened : s.pbsEditorOpen = true → s.text "uuid" ≠ ""
  requests : ∀ r ∈ s.requests, Sent r

theorem mem_copies {s : PbsEditor L} {u x : String} :
    x ∈ s.copies u ↔ pinOf u s.pbsForm = some x ∨ ∃ r ∈ s.requests, carried u r = some x := by
  rw [copies, List.mem_append, Option.mem_toList, List.mem_filterMap]

theorem traced_start (daemon : State L) (cookie csrf u : String) :
    Traced (start daemon cookie csrf) u where
  copies hu x hx := by
    rcases mem_copies.mp hx with hform | ⟨r, hr, -⟩
    · have hblank : pinOf u blankPbs = none := if_neg (Ne.symm hu)
      cases hblank.symm.trans hform
    · exact absurd hr List.not_mem_nil
  opened hopen := by cases hopen
  requests r hr := absurd hr List.not_mem_nil

/-! ### Requests -/

/-- A request is sent that carries no fingerprint but the one in the form. -/
theorem Traced.send {s : PbsEditor L} {u : String} (h : Traced s u) {origin : PbsOrigin}
    {route : Route} {body : Option Json}
    (hsent : ∀ id req, Sent { id, origin, route, req })
    (hcarried : ∀ id req, req.body = body → ∀ x, carried u { id, origin, route, req } = some x →
      pinOf u s.pbsForm = some x) : Traced (s.send origin route body) u where
  copies hu x hx := by
    refine h.copies hu x (mem_copies.mpr ?_)
    rcases mem_copies.mp hx with hform | ⟨r, hr, hcarries⟩
    · exact .inl hform
    · rcases List.mem_append.mp hr with hr | hr
      · exact .inr ⟨r, hr, hcarries⟩
      · rw [List.mem_singleton.mp hr] at hcarries
        exact .inl (hcarried _ _ rfl x hcarries)
  opened := h.opened
  requests r hr := by
    rcases List.mem_append.mp hr with hr | hr
    · exact h.requests r hr
    · rw [List.mem_singleton.mp hr]
      exact hsent _ _

theorem mem_of_find {s : PbsEditor L} {id : Nat} {r : PbsRequest} (h : s.find id = some r) :
    r ∈ s.requests := List.mem_of_find?_eq_some h

theorem mem_forget {s : PbsEditor L} {id : Nat} {r : PbsRequest}
    (h : r ∈ (s.forget id).requests) : r ∈ s.requests := (List.mem_filter.mp h).1

theorem Traced.forget {s : PbsEditor L} {u : String} (h : Traced s u) (id : Nat) :
    Traced (s.forget id) u where
  copies hu x hx := by
    refine h.copies hu x (mem_copies.mpr ?_)
    rcases mem_copies.mp hx with hform | ⟨r, hr, hcarries⟩
    · exact .inl hform
    · exact .inr ⟨r, mem_forget hr, hcarries⟩
  opened := h.opened
  requests r hr := h.requests r (mem_forget hr)

theorem mem_replied {s : PbsEditor L} {r r' : PbsRequest} {reply : Reply}
    (h : r' ∈ (s.replied r reply).requests) :
    r' ∈ s.requests ∨ r' = { r with reply := some reply } := by
  obtain ⟨r₀, hr₀, hr'⟩ := List.mem_map.mp h
  split at hr'
  · exact .inr hr'.symm
  · exact .inl (hr' ▸ hr₀)

/-- A request is answered with a fingerprint that is known. -/
theorem Traced.replied {s : PbsEditor L} {u : String} (h : Traced s u) {r : PbsRequest}
    {reply : Reply} (hsent : Sent { r with reply := some reply })
    (hcarried : ∀ x, carried u { r with reply := some reply } = some x → s.Known u x) :
    Traced (s.replied r reply) u where
  copies hu x hx := by
    rcases mem_copies.mp hx with hform | ⟨r', hr', hcarries⟩
    · exact h.copies hu x (mem_copies.mpr (.inl hform))
    · rcases mem_replied hr' with hr' | rfl
      · exact h.copies hu x (mem_copies.mpr (.inr ⟨r', hr', hcarries⟩))
      · exact hcarried x hcarries
  opened := h.opened
  requests r' hr' := by
    rcases mem_replied hr' with hr' | rfl
    · exact h.requests r' hr'
    · exact hsent

/-- A save or a test carries nothing once it has a reply. -/
theorem Sent.replied {r : PbsRequest} (h : Sent r) (horigin : r.origin ≠ .editPbs) (reply : Reply) :
    Sent { r with reply := some reply } ∧
      ∀ u, carried u { r with reply := some reply } = none := by
  rw [Sent] at h ⊢
  simp only [carried]
  cases hcases : r.origin with
  | editPbs => exact absurd hcases horigin
  | savePbs =>
    rw [hcases] at h
    exact ⟨h, fun _ => rfl⟩
  | testPbs =>
    rw [hcases] at h
    exact ⟨h, fun _ => rfl⟩

/-- An open is answered at once. -/
theorem Sent.ne_editPbs {r : PbsRequest} (h : Sent r) {w : Work} (hreply : r.reply = some (.later w)) :
    r.origin ≠ .editPbs := by
  intro horigin
  rw [Sent, horigin] at h
  obtain ⟨uuid, -, -, hanswered⟩ := h
  obtain ⟨a, hnow, -⟩ := hanswered _ hreply
  cases hnow

/-- A save or a test is answered. -/
theorem Traced.replied_other {s : PbsEditor L} {u : String} (h : Traced s u) {r : PbsRequest}
    (hsent : Sent r) (horigin : r.origin ≠ .editPbs) (reply : Reply) :
    Traced (s.replied r reply) u := by
  obtain ⟨hdone, hnothing⟩ := hsent.replied horigin reply
  refine h.replied hdone ?_
  intro x hx
  cases (hnothing u).symm.trans hx

/-! ### The daemon -/

/-- What GET /api/pbs/<uuid> answers: the stored record, or an error. -/
theorem getPbs_answer (uuid : String) (req : Request) (m : Moment) (st : State L) :
    ∃ a, (Api.getPbs uuid req m st).2 = .now a ∧ (a.status = .ok →
      ∃ srv, Api.getPbsByUuid st uuid = some srv ∧
        a.body.toObject = JsonMap.pbServerToJson srv false) := by
  by_cases hlive : ∃ s, LiveSession st m.now req s
  · obtain ⟨s, hs⟩ := hlive
    have hsame : Api.getPbsByUuid (st.validated m.now req) uuid = Api.getPbsByUuid st uuid := rfl
    rw [Api.getPbs, Api.withAuth_of_live hs, Api.reads, hsame]
    cases hfound : Api.getPbsByUuid st uuid with
    | none => exact ⟨_, rfl, fun hok => by cases hok⟩
    | some srv => exact ⟨_, rfl, fun _ => ⟨srv, rfl, rfl⟩⟩
  · rw [Api.getPbs, Api.withAuth_of_not_live (not_exists.mp hlive)]
    exact ⟨_, rfl, fun hok => by cases hok⟩

theorem pinOf_pbServerToJson (u : String) (srv : PBServer) :
    pinOf u (JsonMap.pbServerToJson srv false) =
      if srv.uuid = u then some srv.fingerprint else none := rfl

theorem stored_of_pbs {s : PbsEditor L} {u : String} {d : State L} (h : d.pbs = s.daemon.pbs) :
    { s with daemon := d }.stored u = s.stored u := by
  rw [stored, stored, Api.getPbsByUuid, Api.getPbsByUuid, h]

/-- The daemon goes on without a change of the fingerprint. -/
theorem Traced.daemon {s : PbsEditor L} {u : String} (h : Traced s u) {d : State L}
    (hd : { s with daemon := d }.stored u = s.stored u) : Traced { s with daemon := d } u where
  copies hu x hx := by
    rcases h.copies hu x hx with hstored | htrusted
    · exact .inl (hd.trans hstored)
    · exact .inr htrusted
  opened := h.opened
  requests := h.requests

/-- What the daemon stores when it serves a save. -/
theorem stored_putPbs (s : PbsEditor L) (u uuid : String) (req : Request) (m : Moment) :
    { s with daemon := (Api.putPbs uuid req m s.daemon).1 }.stored u = s.stored u ∨
      uuid = u ∧ validUuid u = true ∧
        { s with daemon := (Api.putPbs uuid req m s.daemon).1 }.stored u =
          some ((parseBody req).get "fingerprint").toString := by
  rcases Api.putPbs_cases uuid req m s.daemon with ⟨existing, ⟨-, hvalid⟩, -, hrun⟩ | ⟨-, -, hsame⟩
  · have hfind := L.pbs.find_save (s.daemon.validated m.now req).pbs
      (Api.putPbsRecord uuid existing m req) u
    have hkey : (Api.putPbsRecord uuid existing m req).uuid = uuid := by
      rw [Api.putPbsRecord, Api.keepPbsSecrets_eq]
    have hpin : (Api.putPbsRecord uuid existing m req).fingerprint =
        ((parseBody req).get "fingerprint").toString := by
      rw [Api.putPbsRecord, Api.keepPbsSecrets_eq]
      rfl
    rw [hkey] at hfind
    rw [hrun, stored, Api.getPbsByUuid, Api.savePbs, hfind]
    by_cases hu : u = uuid
    · rw [if_pos hu]
      exact .inr ⟨hu.symm, hu ▸ hvalid, congrArg some hpin⟩
    · rw [if_neg hu]
      exact .inl rfl
  · exact .inl (stored_of_pbs (hsame.part .pbs))

/-- A request that does not write the servers is served. -/
theorem serve_pbs {s : PbsEditor L} {r : PbsRequest} (m : Moment)
    (hwrites : r.route.writes .pbs = false) :
    (Api.serve ⟨r.route, r.req, m⟩ s.daemon).1.pbs = s.daemon.pbs :=
  Api.handle_frame hwrites r.req m s.daemon

/-- An open is served: the answer has the stored record. -/
theorem Traced.serve_editPbs {s : PbsEditor L} {u : String} (h : Traced s u) {r : PbsRequest}
    (m : Moment) (horigin : r.origin = .editPbs) {uuid : String} (hne : uuid ≠ "")
    (hroute : r.route = .getPbs uuid) :
    Traced ({ s with daemon := (Api.serve ⟨r.route, r.req, m⟩ s.daemon).1 }.replied r
        (Api.serve ⟨r.route, r.req, m⟩ s.daemon).2) u ∧
      ({ s with daemon := (Api.serve ⟨r.route, r.req, m⟩ s.daemon).1 }.replied r
        (Api.serve ⟨r.route, r.req, m⟩ s.daemon).2).stored u = s.stored u := by
  obtain ⟨a, hanswer, hbody⟩ := getPbs_answer uuid r.req m s.daemon
  have hreply : (Api.serve ⟨r.route, r.req, m⟩ s.daemon).2 = .now a := by
    rw [hroute]
    exact hanswer
  have hsame := stored_of_pbs (u := u) (serve_pbs (s := s) (r := r) m (by rw [hroute]; rfl))
  refine ⟨(h.daemon hsame).replied ?_ fun x hx => .inl (hsame.trans ?_), hsame⟩
  · rw [hreply, Sent, horigin]
    refine ⟨uuid, hne, hroute, fun reply hsome => ⟨a, (Option.some.inj hsome).symm, ?_⟩⟩
    intro hok
    obtain ⟨srv, hfound, hfields⟩ := hbody hok
    rw [hfields, show (Json.Fields.get _ "uuid").toString = srv.uuid from rfl,
      L.pbs.key_of_find hfound]
    exact hne
  · rw [hreply, carried, horigin] at hx
    dsimp only at hx
    split at hx
    · next hok =>
      obtain ⟨srv, hfound, hfields⟩ := hbody hok
      rw [hfields, pinOf_pbServerToJson] at hx
      split at hx
      · next hu =>
        have huuid : uuid = u := (L.pbs.key_of_find hfound).symm.trans hu
        rw [stored, ← huuid, hfound]
        exact hx
      · cases hx
    · cases hx

/-- A save is served: if it replaces the fingerprint, no copy of the old one is left. -/
theorem Traced.serve_savePbs {s : PbsEditor L} {u : String} (h : Traced s u) {r : PbsRequest}
    (m : Moment) (hmem : r ∈ s.requests) (horigin : r.origin = .savePbs) (hreply : r.reply = none)
    {uuid : String} (hroute : r.route = .putPbs uuid)
    (hcareful : ∀ x ∈ carried u r, s.stored u ≠ some x →
      ∀ y ∈ s.copies u, s.stored u = some y → s.Trusted y) :
    Traced ({ s with daemon := (Api.serve ⟨r.route, r.req, m⟩ s.daemon).1 }.replied r
        (Api.serve ⟨r.route, r.req, m⟩ s.daemon).2) u ∧
      (({ s with daemon := (Api.serve ⟨r.route, r.req, m⟩ s.daemon).1 }.replied r
          (Api.serve ⟨r.route, r.req, m⟩ s.daemon).2).stored u = s.stored u ∨
        ∃ x, ({ s with daemon := (Api.serve ⟨r.route, r.req, m⟩ s.daemon).1 }.replied r
          (Api.serve ⟨r.route, r.req, m⟩ s.daemon).2).stored u = some x ∧ s.Trusted x) := by
  have hrun : Api.serve ⟨r.route, r.req, m⟩ s.daemon = Api.putPbs uuid r.req m s.daemon := by
    rw [hroute]
    rfl
  have hne : r.origin ≠ .editPbs := by
    rw [horigin]
    decide
  have hsaved : Traced { s with daemon := (Api.putPbs uuid r.req m s.daemon).1 } u ∧
      ({ s with daemon := (Api.putPbs uuid r.req m s.daemon).1 }.stored u = s.stored u ∨
        ∃ x, { s with daemon := (Api.putPbs uuid r.req m s.daemon).1 }.stored u = some x ∧
          s.Trusted x) := by
    -- A save of another server, or one that is refused, is none of ours.
    rcases stored_putPbs s u uuid r.req m with hsame | ⟨rfl, hvalid, hnew⟩
    · exact ⟨h.daemon hsame, .inl hsame⟩
    · have hcarries : carried uuid r = some ((parseBody r.req).get "fingerprint").toString := by
        rw [carried, horigin, hreply]
        exact if_pos hroute
      by_cases hchange : s.stored uuid = some ((parseBody r.req).get "fingerprint").toString
      · have hsame := hnew.trans hchange.symm
        exact ⟨h.daemon hsame, .inl hsame⟩
      · -- The fingerprint is replaced, so every copy but the new one was typed or verified.
        have hu : uuid ≠ "" := by
          rintro rfl
          exact absurd hvalid (by decide)
        have htrusted : ∀ x ∈ s.copies uuid, s.Trusted x := by
          intro x hx
          rcases h.copies hu x hx with hstored | htrusted
          · exact hcareful _ hcarries hchange x hx hstored
          · exact htrusted
        refine ⟨⟨fun _ x hx => .inr (htrusted x hx), h.opened, h.requests⟩, .inr ⟨_, hnew, ?_⟩⟩
        exact htrusted _ (mem_copies.mpr (.inr ⟨r, hmem, hcarries⟩))
  rw [hrun]
  exact ⟨hsaved.1.replied_other (h.requests r hmem) hne _, hsaved.2⟩

/-- The daemon serves a request. -/
theorem Traced.serve {s : PbsEditor L} {u : String} (h : Traced s u) {id : Nat} {m : Moment}
    (hcareful : Careful u s (.serve id m)) :
    Traced (step s (.serve id m)) u ∧ ((step s (.serve id m)).stored u = s.stored u ∨
      ∃ x, (step s (.serve id m)).stored u = some x ∧ s.Trusted x) := by
  rw [step]
  split
  · next r hr =>
    split
    · exact ⟨h, .inl rfl⟩
    · next hnone =>
      have hsent := h.requests r (mem_of_find hr)
      rw [Sent] at hsent
      cases horigin : r.origin with
      | editPbs =>
        rw [horigin] at hsent
        obtain ⟨uuid, hne, hroute, -⟩ := hsent
        obtain ⟨htraced, hstored⟩ := h.serve_editPbs m horigin hne hroute
        exact ⟨htraced, .inl hstored⟩
      | savePbs =>
        rw [horigin] at hsent
        obtain ⟨uuid, hroute⟩ := hsent
        exact h.serve_savePbs m (mem_of_find hr) horigin (Option.not_isSome_iff_eq_none.mp hnone)
          hroute (hcareful r hr horigin)
      | testPbs =>
        rw [horigin] at hsent
        have hsame := stored_of_pbs (u := u)
          (serve_pbs (s := s) (r := r) m (by rw [hsent]; rfl))
        have hne : r.origin ≠ .editPbs := by
          rw [horigin]
          decide
        refine ⟨(h.daemon hsame).replied_other (h.requests r (mem_of_find hr)) hne _, .inl hsame⟩
  · exact ⟨h, .inl rfl⟩

/-- A worker is done with a test. -/
theorem Traced.connected {s : PbsEditor L} {u : String} (h : Traced s u) (id : Nat) (code : Int)
    (presented : String) : Traced (step s (.connected id code presented)) u ∧
      (step s (.connected id code presented)).stored u = s.stored u := by
  have hlater : ∀ r ∈ s.requests, ∀ w a, r.reply = some (.later w) →
      Traced (s.replied r (.now a)) u := by
    intro r hr w a hreply
    have hsent := h.requests r hr
    exact h.replied_other hsent (hsent.ne_editPbs hreply) _
  rw [step]
  split
  · next r hr =>
    split
    · next hreply => exact ⟨hlater r (mem_of_find hr) _ _ hreply, rfl⟩
    · next hreply => exact ⟨hlater r (mem_of_find hr) _ _ hreply, rfl⟩
    · exact ⟨h, rfl⟩
  · exact ⟨h, rfl⟩

/-! ### The form -/

/-- The form changes to one whose fingerprint is known, if it is one of the server. -/
theorem Traced.form {s : PbsEditor L} {u : String} (h : Traced s u) {s' : PbsEditor L}
    (hdaemon : s'.daemon = s.daemon) (hrequests : s'.requests = s.requests)
    (htyped : s.typed ⊆ s'.typed) (hverified : s.verified ⊆ s'.verified)
    (hform : u ≠ "" → ∀ x, pinOf u s'.pbsForm = some x → s'.Known u x)
    (hopened : s'.pbsEditorOpen = true → s'.text "uuid" ≠ "") : Traced s' u where
  copies hu x hx := by
    rcases mem_copies.mp hx with hx | ⟨r, hr, hcarries⟩
    · exact hform hu x hx
    · rw [hrequests] at hr
      have hstored : s'.stored u = s.stored u := by rw [stored, stored, hdaemon]
      rcases h.copies hu x (mem_copies.mpr (.inr ⟨r, hr, hcarries⟩)) with hx | hx | hx
      · exact .inl (hstored.trans hx)
      · exact .inr (.inl (htyped hx))
      · exact .inr (.inr (hverified hx))
  opened := hopened
  requests := by
    rw [hrequests]
    exact h.requests

/-- A field that is not the uuid or the fingerprint is set. -/
theorem pinOf_set {u k : String} (huuid : k ≠ "uuid") (hpin : k ≠ "fingerprint") (o : Json.Fields)
    (v : Json) : pinOf u (o.set k v) = pinOf u o := by
  rw [pinOf, pinOf, Json.Fields.get_set, Json.Fields.get_set, if_neg huuid.symm, if_neg hpin.symm]

/-- The fingerprint is set. -/
theorem pinOf_set_fingerprint {u x : String} {o : Json.Fields} {v : Json}
    (h : pinOf u (o.set "fingerprint" v) = some x) : (o.get "uuid").toString = u ∧ x = v.toString := by
  have huuid : ¬("uuid" = "fingerprint") := by decide
  rw [pinOf, Json.Fields.get_set, Json.Fields.get_set, if_neg huuid, if_pos rfl] at h
  split at h
  · next hu => exact ⟨hu, (Option.some.inj h).symm⟩
  · cases h

/-- An input sets no uuid. -/
theorem uuid_type (s : PbsEditor L) (input : PbsInput) : (s.type input).text "uuid" = s.text "uuid" := by
  have hfield : input.field.1 ≠ "uuid" := by
    cases input <;> simp [PbsInput.field]
  have hget := Json.Fields.get_set s.pbsForm input.field.1 input.field.2 "uuid"
  rw [if_neg hfield.symm] at hget
  exact congrArg Json.toString hget

theorem Traced.type {s : PbsEditor L} {u : String} (h : Traced s u) (input : PbsInput) :
    Traced (s.type input) u := by
  have hopened : (s.type input).pbsEditorOpen = true → (s.type input).text "uuid" ≠ "" := by
    rw [uuid_type]
    exact h.opened
  have hother : ∀ k v, k ≠ "uuid" → k ≠ "fingerprint" →
      (s.type input).pbsForm = s.pbsForm.set k v → (s.type input).typed = s.typed →
        Traced (s.type input) u := by
    intro k v huuid hpin hform htyped
    refine h.form rfl rfl ?_ (List.Subset.refl _) ?_ hopened
    · rw [htyped]
      exact List.Subset.refl _
    · intro hu x hx
      rw [hform, pinOf_set huuid hpin] at hx
      rcases h.copies hu x (mem_copies.mpr (.inl hx)) with hstored | htrusted
      · exact .inl hstored
      · rw [Known, Trusted, htyped]
        exact .inr htrusted
  cases input with
  | fingerprint text =>
    refine h.form rfl rfl (List.subset_cons_self _ _) (List.Subset.refl _) ?_ hopened
    intro _ x hx
    obtain ⟨-, rfl⟩ := pinOf_set_fingerprint hx
    exact .inr (.inl List.mem_cons_self)
  | name text => exact hother "name" _ (by decide) (by decide) rfl rfl
  | host text => exact hother "host" _ (by decide) (by decide) rfl rfl
  | port value => exact hother "port" _ (by decide) (by decide) rfl rfl
  | username text => exact hother "username" _ (by decide) (by decide) rfl rfl
  | password text => exact hother "password" _ (by decide) (by decide) rfl rfl
  | keyfile text => exact hother "keyfile" _ (by decide) (by decide) rfl rfl
  | keypass text => exact hother "keypass" _ (by decide) (by decide) rfl rfl

/-- A save carries what the form holds. -/
theorem Traced.savePbs {s : PbsEditor L} {u : String} (h : Traced s u)
    (hopen : s.pbsEditorOpen = true) : Traced s.savePbs u := by
  rw [PbsEditor.savePbs]
  split
  · exact h
  · have hbusy : Traced { s with busy := true } u := ⟨h.copies, h.opened, h.requests⟩
    have huuid : (s.text "uuid").isEmpty = false := by
      rw [Bool.eq_false_iff, ne_eq, String.isEmpty_iff]
      exact h.opened hopen
    dsimp only
    rw [show ({ s with busy := true } : PbsEditor L).text "uuid" = s.text "uuid" from rfl, huuid]
    refine hbusy.send (fun id req => ⟨_, rfl⟩) ?_
    intro id req hbody x hx
    rw [carried] at hx
    dsimp only at hx
    split at hx
    · next hroute =>
      rw [parseBody, hbody] at hx
      rw [pinOf]
      exact (if_pos (Route.putPbs.inj hroute)).trans hx
    · cases hx

/-! ### Answers -/

/-- The server is opened with what the daemon answered. -/
theorem Traced.editPbsDone {s : PbsEditor L} {u : String} (h : Traced s u) {o : Json.Fields}
    (huuid : (o.get "uuid").toString ≠ "")
    (hpin : u ≠ "" → ∀ x, pinOf u o = some x → s.Known u x) :
    Traced (s.editPbsDone (.ok o)) u := by
  refine h.form rfl rfl (List.Subset.refl _) (List.Subset.refl _) ?_ ?_
  · intro hu x hx
    have hset : pinOf u ((o.set "password" (.str "")).set "keypass" (.str "")) = pinOf u o := by
      rw [pinOf_set (by decide) (by decide), pinOf_set (by decide) (by decide)]
    exact hpin hu x (hset.symm.trans hx)
  · intro _
    show ((Json.Fields.set _ "keypass" _).get "uuid").toString ≠ ""
    rw [Json.Fields.get_set, if_neg (by decide), Json.Fields.get_set, if_neg (by decide)]
    exact huuid

/-- A test is answered; if its certificate goes into the form of the server, it is
reported as verified. -/
theorem Traced.testPbsDone {s : PbsEditor L} {u : String} (h : Traced s u) {o : Json.Fields}
    (hcareful : s.text "uuid" = u → (o.get "ok").toBool = true →
      (o.get "fingerprint").toString ≠ "" → (o.get "verified").toBool = true) :
    Traced (s.testPbsDone (.ok o)) u := by
  rw [PbsEditor.testPbsDone]
  split
  · next hok =>
    refine h.form rfl rfl (List.Subset.refl _) ?_ ?_ ?_
    · dsimp only
      split
      · exact List.subset_cons_self _ _
      · exact List.Subset.refl _
    · intro hu x hx
      dsimp only at hx
      split at hx
      · rcases h.copies hu x (mem_copies.mpr (.inl hx)) with hstored | htyped | hverified
        · exact .inl hstored
        · exact .inr (.inl htyped)
        · refine .inr (.inr ?_)
          dsimp only
          split
          · exact List.mem_cons_of_mem _ hverified
          · exact hverified
      · next hne =>
        obtain ⟨huuid, rfl⟩ := pinOf_set_fingerprint hx
        refine .inr (.inr ?_)
        dsimp only
        rw [if_pos (hcareful huuid hok (by simpa using hne))]
        exact List.mem_cons_self
    · intro hopen
      have huuid := h.opened hopen
      show ((if _ then s.pbsForm else _ : Json.Fields).get "uuid").toString ≠ ""
      split
      · exact huuid
      · rw [Json.Fields.get_set, if_neg (by decide)]
        exact huuid
  · exact ⟨h.copies, h.opened, h.requests⟩

/-- A request that failed, or an error that was answered. -/
theorem Traced.done_error {s : PbsEditor L} {u : String} (h : Traced s u) (origin : PbsOrigin)
    (message : String) : Traced (s.done origin (.error message)) u := by
  cases origin with
  | editPbs => exact h
  | savePbs => exact ⟨h.copies, h.opened, h.requests⟩
  | testPbs => exact ⟨h.copies, h.opened, h.requests⟩

theorem reply_of_answerOf {r : PbsRequest} {a : Response} (h : answerOf r = some a) :
    r.reply = some (.now a) := by
  rw [answerOf] at h
  split at h
  · next hreply => rw [hreply, Option.some.inj h]
  · cases h

/-- An answer arrives. -/
theorem Traced.answer {s : PbsEditor L} {u : String} (h : Traced s u) {id : Nat}
    (hcareful : Careful u s (.answer id)) : Traced (step s (.answer id)) u := by
  rw [step]
  split
  · next r hr =>
    split
    · next a ha =>
      have hforget := h.forget id
      have hmem := mem_of_find hr
      have hreply := reply_of_answerOf ha
      rw [received]
      split
      · next hok =>
        cases horigin : r.origin with
        | editPbs =>
          have hsent := h.requests r hmem
          rw [Sent, horigin] at hsent
          obtain ⟨uuid, -, -, hanswered⟩ := hsent
          obtain ⟨a', hnow, huuid⟩ := hanswered _ hreply
          obtain rfl := Reply.now.inj hnow
          refine hforget.editPbsDone (huuid hok) ?_
          intro hu x hx
          refine h.copies hu x (mem_copies.mpr (.inr ⟨r, hmem, ?_⟩))
          rw [carried, horigin, hreply]
          exact (if_pos hok).trans hx
        | savePbs => exact ⟨hforget.copies, fun hopen => (by cases hopen), hforget.requests⟩
        | testPbs =>
          refine hforget.testPbsDone ?_
          intro huuid hsuccess hne
          exact hcareful r hr a ha horigin huuid ⟨hok, hsuccess, hne⟩
      · exact hforget.done_error _ _
    · exact h
  · exact h

/-- A test that brings no certificate leaves the form as it is. -/
theorem pbsForm_testPbsDone {s : PbsEditor L} {a : Response} (h : ¬Captures a) :
    (s.testPbsDone (received a)).pbsForm = s.pbsForm := by
  rw [received]
  split
  · next hstatus =>
    rw [PbsEditor.testPbsDone]
    split
    · next hok =>
      refine if_pos ?_
      rw [String.isEmpty_iff]
      exact of_not_not fun hne => h ⟨hstatus, hok, hne⟩
    · rfl
  · rfl

/-! ### Runs -/

/-- One event keeps the invariant. -/
theorem Traced.next {s : PbsEditor L} {u : String} (h : Traced s u) {e : PbsEvent}
    (hcareful : Careful u s e) : Traced ((machine L).next s e) u := by
  show Traced (step s e) u
  cases e with
  | editPbs uuid =>
    rw [step, PbsEditor.editPbs]
    split
    · exact h
    · next hne =>
      refine h.send (fun id req => ⟨uuid, by simpa using hne, rfl, nofun⟩) ?_
      intro id req _ x hx
      cases hx
  | type input =>
    rw [step]
    split
    · exact h.type input
    · exact h
  | testPbs =>
    rw [step]
    split
    · have hwaiting : Traced { s with pbsTest := .waiting } u := ⟨h.copies, h.opened, h.requests⟩
      refine hwaiting.send (fun id req => rfl) ?_
      intro id req _ x hx
      cases hx
    · exact h
  | savePbs =>
    rw [step]
    split
    · next hopen =>
      rw [Bool.and_eq_true] at hopen
      exact h.savePbs hopen.1
    · exact h
  | cancel => exact ⟨h.copies, fun hopen => (by cases hopen), h.requests⟩
  | serve id m => exact (h.serve hcareful).1
  | connected id code presented => exact (h.connected id code presented).1
  | answer id => exact h.answer hcareful
  | fail id message =>
    rw [step]
    split
    · exact (h.forget id).done_error _ message
    · exact h

/-- Only when a request is served the daemon changes. -/
theorem daemon_done (s : PbsEditor L) (origin : PbsOrigin) (r : Except String Json.Fields) :
    (s.done origin r).daemon = s.daemon := by
  cases origin with
  | editPbs => cases r <;> rfl
  | savePbs => cases r <;> rfl
  | testPbs =>
    cases r with
    | ok o =>
      rw [done, PbsEditor.testPbsDone]
      split
      · rfl
      · rfl
    | error message => rfl

theorem daemon_step (s : PbsEditor L) {e : PbsEvent} (h : ∀ id m, e ≠ .serve id m) :
    (step s e).daemon = s.daemon := by
  cases e with
  | editPbs uuid =>
    rw [step, PbsEditor.editPbs]
    split
    · rfl
    · rfl
  | type input =>
    rw [step]
    split
    · rfl
    · rfl
  | testPbs =>
    rw [step]
    split
    · rfl
    · rfl
  | savePbs =>
    rw [step, PbsEditor.savePbs]
    split
    · split
      · rfl
      · dsimp only
        split
        · rfl
        · rfl
    · rfl
  | cancel => rfl
  | serve id m => exact absurd rfl (h id m)
  | connected id code presented =>
    rw [step]
    split
    · split
      · rfl
      · rfl
      · rfl
    · rfl
  | answer id =>
    rw [step]
    split
    · split
      · exact daemon_done _ _ _
      · rfl
    · rfl
  | fail id message =>
    rw [step]
    split
    · exact daemon_done _ _ _
    · rfl

/-- One event keeps the pin. -/
theorem Traced.pinKept {s : PbsEditor L} {u : String} (h : Traced s u) {e : PbsEvent}
    (hcareful : Careful u s e) : PinKept u s e where
  stored := by
    by_cases hserve : ∃ id m, e = .serve id m
    · obtain ⟨id, m, rfl⟩ := hserve
      rcases (h.serve hcareful).2 with hsame | ⟨x, hnew, htrusted⟩
      · exact .inl hsame
      · refine .inr ⟨x, hnew, ?_⟩
        show Trusted (step s (.serve id m)) x
        rw [step]
        split
        · split
          · exact htrusted
          · exact htrusted
        · exact htrusted
    · have hdaemon : ((machine L).next s e).daemon = s.daemon :=
        daemon_step s fun id m he => hserve ⟨id, m, he⟩
      rw [PbsEditor.stored, PbsEditor.stored, hdaemon]
      exact .inl rfl
  form := by
    rintro id r a rfl hr horigin hreply hverified huuid
    have ha : answerOf r = some a := by rw [answerOf, hreply]
    have hcaptures : ¬Captures a := by
      intro hcaptures
      have htrue := hcareful r hr a ha horigin huuid hcaptures
      rw [hverified] at htrue
      cases htrue
    have hnext : (machine L).next s (.answer id) = (s.forget id).testPbsDone (received a) := by
      show step s (.answer id) = _
      rw [step, hr]
      dsimp only
      rw [ha, horigin]
      rfl
    rw [hnext, text, pbsForm_testPbsDone hcaptures]
    rfl

/-- **A pinned certificate is not replaced by an unverified one.** In every run of the
editor, from a page that was just loaded, whose events are careful of the server: at each
of them, the fingerprint the daemon has stored for it changes at most to one that was typed
or that a test reported as verified, and a test that is answered with `verified: false`
leaves the one in the form alone. -/
theorem pinned_fingerprint_kept (daemon : State L) (cookie csrf u : String) (es : List PbsEvent)
    (hcareful : (machine L).Along (Careful u) (start daemon cookie csrf) es) :
    (machine L).Along (PinKept u) (start daemon cookie csrf) es :=
  along_of_invariant (I := fun s => Traced s u) (fun _ _ h hcareful => h.next hcareful)
    (fun _ _ h hcareful => h.pinKept hcareful) (traced_start daemon cookie csrf u) hcareful

/-! ### Two runs -/

instance decidableCaptures (a : Response) : Decidable (Captures a) :=
  inferInstanceAs (Decidable (_ ∧ _ ∧ _))

instance decidableTrusted (s : PbsEditor L) (x : String) : Decidable (s.Trusted x) :=
  inferInstanceAs (Decidable (_ ∨ _))

instance decidableCareful (u : String) (s : PbsEditor L) : (e : PbsEvent) → Decidable (Careful u s e)
  | .answer id => inferInstanceAs (Decidable (∀ r ∈ s.find id, ∀ a ∈ answerOf r,
      r.origin = .testPbs → s.text "uuid" = u → Captures a →
        (a.body.toObject.get "verified").toBool = true))
  | .serve id _ => inferInstanceAs (Decidable (∀ r ∈ s.find id, r.origin = .savePbs →
      ∀ x ∈ carried u r, s.stored u ≠ some x → ∀ y ∈ s.copies u, s.stored u = some y →
        s.Trusted y))
  | .editPbs _ | .type _ | .testPbs | .savePbs | .cancel | .connected _ _ _ | .fail _ _ =>
    .isTrue trivial

/-- A server with a pinned certificate. -/
def pinnedPbs : PBServer where
  uuid := "0a1b2c3d"
  name := "offsite"
  host := "pbs.example"
  port := 8007
  username := "root@pam"
  password := "secret"
  fingerprint := "AB:CD"
  keyfile := ""
  keypass := ""

/-- The page of an admin who is logged in. -/
def pinnedPage : PbsEditor Reference.library :=
  start (Api.savePbs Reference.initial pinnedPbs) "tibackup_sid=sid" "csrf"

/-- The server is opened and tested, and presents this certificate. -/
def openAndTest (presented : String) : List PbsEvent :=
  [.editPbs "0a1b2c3d", .serve 0 (Reference.moment "11111111"), .answer 0, .testPbs,
    .serve 1 (Reference.moment "22222222"), .connected 1 200 presented, .answer 1]

/-- The form is saved. -/
def saveForm : List PbsEvent := [.savePbs, .serve 2 (Reference.moment "33333333"), .answer 2]

/-- The pinned certificate is presented, and then the admin types in another one. -/
def retypePin : List PbsEvent :=
  openAndTest "AB:CD" ++ [.type (.fingerprint "EF:01")] ++ saveForm

/-- A stranger's certificate is presented, and the form is saved. -/
def pinStranger : List PbsEvent := openAndTest "66:66" ++ saveForm

theorem pinned_fingerprint_kept_retypePin :
    pinnedPage.stored "0a1b2c3d" = some "AB:CD" ∧
      (machine _).Along (Careful "0a1b2c3d") pinnedPage retypePin ∧
      (machine _).Along (PinKept "0a1b2c3d") pinnedPage retypePin ∧
      ((machine _).run pinnedPage retypePin).stored "0a1b2c3d" = some "EF:01" := by
  have hcareful : (machine _).Along (Careful "0a1b2c3d") pinnedPage retypePin := by decide +kernel
  exact ⟨by decide +kernel, hcareful, pinned_fingerprint_kept _ _ _ _ _ hcareful,
    by decide +kernel⟩

/-- The page when the stranger's certificate is on its way to the daemon. -/
def savingStranger : PbsEditor Reference.library :=
  (machine _).run pinnedPage (openAndTest "66:66" ++ [.savePbs])

/-- The daemon has served the save. -/
def savedStranger : PbsEditor Reference.library :=
  (machine _).next savingStranger (.serve 2 (Reference.moment "33333333"))

/-- The test reports a mismatch, the certificate is in the form all the same, and saving
pins it. -/
theorem pinStranger_pins :
    pinnedPage.stored "0a1b2c3d" = some "AB:CD" ∧
      (((machine _).run pinnedPage (openAndTest "66:66")).pbsTest matches .mismatch) = true ∧
      ((machine _).run pinnedPage pinStranger).stored "0a1b2c3d" = some "66:66" ∧
      ((machine _).run pinnedPage pinStranger).typed = [] ∧
      ((machine _).run pinnedPage pinStranger).verified = [] ∧
      ¬(machine _).Along (PinKept "0a1b2c3d") pinnedPage pinStranger := by
  refine ⟨by decide +kernel, by decide +kernel, by decide +kernel, by decide +kernel,
    by decide +kernel, ?_⟩
  intro h
  have hkept : PinKept "0a1b2c3d" savingStranger (.serve 2 (Reference.moment "33333333")) :=
    h.2.2.2.2.2.2.2.2.1
  rcases hkept.stored with hsame | ⟨x, -, htyped | hverified⟩
  · have hchanges : savedStranger.stored "0a1b2c3d" ≠ savingStranger.stored "0a1b2c3d" := by
      decide +kernel
    exact hchanges hsame
  · have hnone : savedStranger.typed = [] := by decide +kernel
    exact absurd htyped (hnone ▸ List.not_mem_nil)
  · have hnone : savedStranger.verified = [] := by decide +kernel
    exact absurd hverified (hnone ▸ List.not_mem_nil)

end PbsEditor

end TiBackup
