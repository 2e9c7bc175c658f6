import TiBackup.Model.SshEditor
import TiBackup.Stores.HostKeys

/-!
# TiBackup.Stores.CapturedKeys

**The page makes up no host keys.** The key that is stored for an SSH server comes from the
daemon or from the page, which sends along what a test has put into its form. A test takes
its time, and the form may be another one when it is over.

As long as the form is not exchanged while a test is under way (`Calm`), a key the page sends
for a server was presented in a test of this server, or, if the server is new, in a test of
one that was not stored yet. So in every run each key was stored at the beginning, was
presented in such a test, or was brought along by somebody else (`hostkey_source`).
-/

namespace TiBackup

open Lib Lib.Machine

variable {L : Library}

namespace SshEditor

variable {s₀ s s' : SshEditor L} {es : List SshEditorEvent} {uuid key : String}

/-- A worker tests the connection to a server; one that is not stored has an empty uuid. -/
def Tests (s : SshEditor L) (srv : SSHServer) (uuid : String) : SshEditorEvent → Prop
  | .worked i => ∃ r, s.calls[i]? = some r ∧ r.reply = some (.later (.sshTest srv uuid))
  | .elsewhere (.done j) => ∃ c, s.daemon.pool[j]? = some ⟨c, .sshTest srv uuid⟩
  | _ => False

/-- What the server presents to a test. -/
def presents (s : SshEditor L) (srv : SSHServer) : TestResult :=
  L.system.sshTest s.daemon.state.host srv

/-- The key was presented in a test that succeeded. -/
def Presented (s₀ : SshEditor L) (es : List SshEditorEvent) (uuid key : String) : Prop :=
  ∃ pre e post srv, es = pre ++ e :: post ∧ Tests ((machine L).run s₀ pre) srv uuid e ∧
    (presents ((machine L).run s₀ pre) srv).ok = true ∧
    (presents ((machine L).run s₀ pre) srv).hostkey = key

/-- There is no key, or it was presented. -/
def Captured (s₀ : SshEditor L) (es : List SshEditorEvent) (uuid key : String) : Prop :=
  key = "" ∨ Presented s₀ es uuid key

theorem Presented.append (h : Presented s₀ es uuid key) (fs : List SshEditorEvent) :
    Presented s₀ (es ++ fs) uuid key := by
  obtain ⟨pre, e, post, srv, rfl, h⟩ := h
  exact ⟨pre, e, post ++ fs, srv, by simp, h⟩

theorem Captured.append (h : Captured s₀ es uuid key) (fs : List SshEditorEvent) :
    Captured s₀ (es ++ fs) uuid key := h.imp id (Presented.append · fs)

/-- The key in the body of a request. -/
def bodyKey (req : Request) : String := ((parseBody req).get "hostkey").toString

/-- What a reply to a test says about the key. -/
def TestReply (s₀ : SshEditor L) (es : List SshEditorEvent) (uuid : String) : Option Reply → Prop
  | none => True
  | some (.later w) => (∃ srv, w = .sshTest srv uuid) ∨ ∃ a, w = .respond a ∧ a.status ≠ .ok
  | some (.now a) => a.status = .ok → (a.body.toObject.get "ok").toBool = true →
      Captured s₀ es uuid (a.body.toObject.get "hostkey").toString

/-- What is known of a request in flight, given the uuid in the form. -/
def Sound (s₀ : SshEditor L) (es : List SshEditorEvent) (uuid : String) (r : SshCall) : Prop :=
  match r.origin with
  | .editSsh => ∃ uuid, r.route = .getSsh uuid
  | .saveSsh =>
    r.route = .postSsh ∧ ((parseBody r.req).get "uuid").toString = "" ∧
        Captured s₀ es "" (bodyKey r.req) ∨
      ∃ uuid, r.route = .putSsh uuid ∧ Captured s₀ es uuid (bodyKey r.req)
  | .testSsh => r.route = .sshTest ∧ ((parseBody r.req).get "uuid").toString = uuid ∧
      TestReply s₀ es uuid r.reply

theorem TestReply.append {reply : Option Reply} (h : TestReply s₀ es uuid reply)
    (fs : List SshEditorEvent) : TestReply s₀ (es ++ fs) uuid reply := by
  cases reply with
  | none => trivial
  | some reply =>
    cases reply with
    | later w => exact h
    | now a => exact fun hstatus hok => (h hstatus hok).append fs

theorem Sound.append {r : SshCall} (h : Sound s₀ es uuid r) (fs : List SshEditorEvent) :
    Sound s₀ (es ++ fs) uuid r := by
  unfold Sound at h ⊢
  split
  · next horigin =>
    rw [horigin] at h
    exact h
  · next horigin =>
    rw [horigin] at h
    rcases h with ⟨hroute, huuid, hkey⟩ | ⟨uuid, hroute, hkey⟩
    · exact .inl ⟨hroute, huuid, hkey.append fs⟩
    · exact .inr ⟨uuid, hroute, hkey.append fs⟩
  · next horigin =>
    rw [horigin] at h
    exact ⟨h.1, h.2.1, h.2.2.append fs⟩

/-- Only a test is about the form. -/
theorem Sound.of_not_test {r : SshCall} (h : Sound s₀ es uuid r) (horigin : r.origin ≠ .testSsh)
    (uuid' : String) : Sound s₀ es uuid' r := by
  unfold Sound at h ⊢
  split
  · next hedit =>
    rw [hedit] at h
    exact h
  · next hsave =>
    rw [hsave] at h
    exact h
  · next htest => exact absurd htest horigin

/-- The invariant of the editor. -/
structure Traced (s₀ : SshEditor L) (es : List SshEditorEvent) (s : SshEditor L) : Prop where
  form : Captured s₀ es (s.text "uuid") (s.text "hostkey")
  calls : ∀ r ∈ s.calls, Sound s₀ es (s.text "uuid") r

/-- The form stays, and a request may come in. -/
theorem Traced.keep (h : Traced s₀ es s) (fs : List SshEditorEvent)
    (hform : s'.sshForm = s.sshForm)
    (hcalls : ∀ r ∈ s'.calls, r ∈ s.calls ∨ Sound s₀ (es ++ fs) (s.text "uuid") r) :
    Traced s₀ (es ++ fs) s' := by
  have htext : ∀ field, s'.text field = s.text field := fun field => by rw [text, text, hform]
  refine ⟨?_, fun r hr => ?_⟩
  · rw [htext, htext]
    exact h.form.append fs
  · rw [htext]
    exact (hcalls r hr).elim (fun hold => (h.calls r hold).append fs) id

/-- Nothing happens to the form or the requests. -/
theorem Traced.same (h : Traced s₀ es s) (fs : List SshEditorEvent)
    (hform : s'.sshForm = s.sshForm) (hcalls : s'.calls = s.calls) : Traced s₀ (es ++ fs) s' :=
  h.keep fs hform fun _ hr => .inl (hcalls ▸ hr)

theorem Traced.stay (h : Traced s₀ es s) (fs : List SshEditorEvent) : Traced s₀ (es ++ fs) s :=
  h.same fs rfl rfl

/-- A request is over. -/
theorem Traced.forget (h : Traced s₀ es s) (i : Nat) : Traced s₀ es (s.forget i) :=
  ⟨h.form, fun r hr => h.calls r (List.mem_of_mem_eraseIdx hr)⟩

/-! ### What the page does -/

theorem Traced.send (h : Traced s₀ es s) (fs : List SshEditorEvent) {origin : SshOrigin}
    {route : Route} {body : Option Json} (hsound : Sound s₀ (es ++ fs) (s.text "uuid")
      { origin, route
        req := { cookie := s.cookie, body
                 csrfToken := if route.method = some .Get then "" else s.csrf } }) :
    Traced s₀ (es ++ fs) (s.send origin route body) := by
  refine h.keep fs rfl fun r hr => ?_
  rcases List.mem_append.mp hr with hr | hr
  · exact .inl hr
  · exact .inr (List.mem_singleton.mp hr ▸ hsound)

theorem Traced.editSsh (h : Traced s₀ es s) (uuid : String) (fs : List SshEditorEvent) :
    Traced s₀ (es ++ fs) (s.editSsh uuid) := by
  rw [SshEditor.editSsh]
  split
  · exact h.stay fs
  · exact h.send fs ⟨uuid, rfl⟩

theorem Traced.busy (h : Traced s₀ es s) (b : Bool) : Traced s₀ es { s with busy := b } :=
  ⟨h.form, h.calls⟩

theorem Traced.saveSsh (h : Traced s₀ es s) (fs : List SshEditorEvent) :
    Traced s₀ (es ++ fs) s.saveSsh := by
  have hbusy := h.busy true
  have hform := h.form.append fs
  rw [SshEditor.saveSsh]
  split
  · exact h.stay fs
  · dsimp only
    split
    · next huuid =>
      have huuid : s.text "uuid" = "" := String.isEmpty_iff.mp huuid
      rw [huuid] at hform
      exact hbusy.send fs (.inl ⟨rfl, huuid, hform⟩)
    · exact hbusy.send fs (.inr ⟨_, rfl, hform⟩)

theorem Traced.testSsh (h : Traced s₀ es s) (fs : List SshEditorEvent) :
    Traced s₀ (es ++ fs) s.testSsh := by
  have htesting : Traced s₀ es { s with sshTest := "…" } := ⟨h.form, h.calls⟩
  rw [SshEditor.testSsh]
  refine htesting.send fs ⟨rfl, ?_, trivial⟩
  rw [parseBody_obj rfl]
  split
  · rfl
  · rfl

/-- The inputs are not bound to the uuid or the key. -/
theorem Traced.type (h : Traced s₀ es s) (input : SshInput) (fs : List SshEditorEvent) :
    Traced s₀ (es ++ fs) (s.type input) := by
  have htext : ∀ field, field = "uuid" ∨ field = "hostkey" →
      (s.type input).text field = s.text field := by
    intro field hfield
    rw [text, SshEditor.type, Json.Fields.get_set, if_neg]
    · rfl
    · rcases hfield with rfl | rfl <;> cases input <;> simp [SshInput.field]
  refine ⟨?_, fun r hr => ?_⟩
  · rw [htext _ (.inl rfl), htext _ (.inr rfl)]
    exact h.form.append fs
  · rw [htext _ (.inl rfl)]
    exact (h.calls r hr).append fs

/-- Another form is shown while no test is under way. -/
theorem Traced.exchange (h : Traced s₀ es s) (fs : List SshEditorEvent)
    (hcalm : ∀ r ∈ s.calls, r.origin ≠ .testSsh) (hcalls : s'.calls = s.calls)
    (hkey : s'.text "hostkey" = "") : Traced s₀ (es ++ fs) s' :=
  ⟨.inl hkey, fun r hr =>
    have hr := hcalls ▸ hr
    ((h.calls r hr).of_not_test (hcalm r hr) _).append fs⟩

/-- The form is not exchanged while a test is under way. -/
def Calm (s : SshEditor L) (e : SshEditorEvent) : Prop :=
  (match e with
    | .newSsh => True
    | .answer i => (s.calls[i]?.map SshCall.origin) = some .editSsh
    | _ => False) → ∀ r ∈ s.calls, r.origin ≠ .testSsh

/-! ### What the daemon replies -/

theorem Traced.replied (h : Traced s₀ es s) (fs : List SshEditorEvent) {i : Nat} {r : SshCall}
    {st : State L} {reply : Reply}
    (hsound : Sound s₀ (es ++ fs) (s.text "uuid") { r with reply := some reply }) :
    Traced s₀ (es ++ fs) (s.replied i r st reply) := by
  refine h.keep fs rfl fun r' hr' => ?_
  rcases List.mem_or_eq_of_mem_set hr' with hr' | rfl
  · exact .inl hr'
  · exact .inr hsound

/-- Only of a test it is known what the reply says. -/
theorem Sound.reply {r : SshCall} (h : Sound s₀ es uuid r) {reply : Option Reply}
    (hreply : r.origin = .testSsh → TestReply s₀ es uuid reply) :
    Sound s₀ es uuid { r with reply } := by
  obtain ⟨origin, route, req, reply'⟩ := r
  cases origin with
  | editSsh => exact h
  | saveSsh => exact h
  | testSsh => exact ⟨h.1, h.2.1, hreply rfl⟩

/-- A test is left to a worker, for the server of the body, or refused. -/
theorem testReply_sshTest (s₀ : SshEditor L) (es : List SshEditorEvent) (req : Request) (m : Moment)
    (st : State L) : TestReply s₀ es ((parseBody req).get "uuid").toString
      (some (Api.serve ⟨.sshTest, req, m⟩ st).2) := by
  show TestReply s₀ es _ (some (Api.sshTest req m st).2)
  rcases Api.guarded_cases st req m .future _ with ⟨-, hrun⟩ | ⟨e, he, hrun⟩
  · rw [Api.sshTest, hrun]
    dsimp only
    split
    · cases Api.getSshByUuid (st.validated m.now req) ((parseBody req).get "uuid").toString with
      | none => exact .inr ⟨_, rfl, by decide⟩
      | some srv => exact .inl ⟨srv, rfl⟩
    · exact .inl ⟨_, rfl⟩
  · rw [Api.sshTest, hrun]
    refine .inr ⟨e, rfl, ?_⟩
    rcases he with rfl | rfl
    · decide
    · decide

theorem Traced.serve (h : Traced s₀ es s) {i : Nat} {r : SshCall} (hi : s.calls[i]? = some r)
    (m : Moment) (fs : List SshEditorEvent) : Traced s₀ (es ++ fs)
      (s.replied i r (Api.serve ⟨r.route, r.req, m⟩ s.daemon.state).1
        (Api.serve ⟨r.route, r.req, m⟩ s.daemon.state).2) := by
  have hsound := h.calls r (List.mem_of_getElem? hi)
  refine h.replied fs ((hsound.append fs).reply fun horigin => ?_)
  rw [Sound, horigin] at hsound
  obtain ⟨hroute, huuid, -⟩ := hsound
  rw [hroute, ← huuid]
  exact testReply_sshTest s₀ _ r.req m _

theorem answer_sshTestDone (srv : SSHServer) (uuid : String) (tr : TestResult) (st : State L) :
    ((Api.sshTestDone srv uuid tr st).2.body.toObject.get "ok").toBool = tr.ok ∧
      ((Api.sshTestDone srv uuid tr st).2.body.toObject.get "hostkey").toString = tr.hostkey := by
  rw [Api.sshTestDone]
  dsimp only
  split
  · exact ⟨rfl, rfl⟩
  · exact ⟨rfl, rfl⟩

/-- The worker of a test answers with what was presented. -/
theorem Traced.worked {i : Nat} (h : Traced s₀ es ((machine L).run s₀ es)) {r : SshCall} {w : Work}
    (hi : ((machine L).run s₀ es).calls[i]? = some r) (hw : r.reply = some (.later w)) :
    Traced s₀ (es ++ [.worked i]) (((machine L).run s₀ es).replied i r
      (Api.runWork w ((machine L).run s₀ es).daemon.state).1
      (.now (Api.runWork w ((machine L).run s₀ es).daemon.state).2)) := by
  have hsound := h.calls r (List.mem_of_getElem? hi)
  refine h.replied [.worked i] ((hsound.append _).reply fun horigin => ?_)
  rw [Sound, horigin, hw] at hsound
  rcases hsound.2.2 with ⟨srv, rfl⟩ | ⟨a, rfl, hrefused⟩
  · intro _ hok
    obtain ⟨hanswered, hkey⟩ := answer_sshTestDone srv (((machine L).run s₀ es).text "uuid")
      (presents ((machine L).run s₀ es) srv) ((machine L).run s₀ es).daemon.state
    exact .inr ⟨es, .worked i, [], srv, rfl, ⟨r, hi, hw⟩, hanswered.symm.trans hok, hkey.symm⟩
  · exact fun hstatus => absurd hstatus hrefused

/-! ### What the page goes on with -/

/-- The key of a test goes into the form. -/
theorem Traced.testSshDone (h : Traced s₀ es s) {a : Response}
    (ha : TestReply s₀ es (s.text "uuid") (some (.now a))) (fs : List SshEditorEvent) :
    Traced s₀ (es ++ fs) (s.testSshDone (PbsEditor.received a)) := by
  rw [PbsEditor.received]
  split
  · next hstatus =>
    rw [SshEditor.testSshDone]
    split
    · next hok =>
      have hcaptured := (ha hstatus hok).append fs
      have huuid : ∀ k : Json, ∀ f : Json,
          (((s.sshForm.set "hostkey" k).set "fingerprint" f).get "uuid").toString = s.text "uuid" := by
        intro k f
        rw [Json.Fields.get_set, if_neg (by decide), Json.Fields.get_set, if_neg (by decide), text]
      refine ⟨?_, fun r hr => ?_⟩
      · rw [text, text, huuid, Json.Fields.get_set, if_neg (by decide), Json.Fields.get_set, if_pos rfl]
        exact hcaptured
      · rw [text, huuid]
        exact (h.calls r hr).append fs
    · exact h.same fs rfl rfl
  · exact h.same fs rfl rfl

theorem Traced.saveSshDone (h : Traced s₀ es s) (r : Except String Json.Fields)
    (fs : List SshEditorEvent) : Traced s₀ (es ++ fs) (s.saveSshDone r) := by
  cases r with
  | ok o => exact h.same fs rfl rfl
  | error message => exact h.same fs rfl rfl

theorem Traced.editSshDone (h : Traced s₀ es s) (hcalm : ∀ r ∈ s.calls, r.origin ≠ .testSsh)
    (r : Except String Json.Fields) (fs : List SshEditorEvent) :
    Traced s₀ (es ++ fs) (s.editSshDone r) := by
  cases r with
  | ok o =>
    refine h.exchange fs hcalm rfl ?_
    rw [SshEditor.editSshDone, text, Json.Fields.get_set, if_neg (by decide), Json.Fields.get_set,
      if_pos rfl]
    rfl
  | error message => exact h.stay fs

/-- A request that failed leaves the form alone. -/
theorem Traced.done_error (h : Traced s₀ es s) (origin : SshOrigin) (message : String)
    (fs : List SshEditorEvent) : Traced s₀ (es ++ fs) (s.done origin (.error message)) := by
  cases origin with
  | editSsh => exact h.stay fs
  | saveSsh => exact h.saveSshDone (.error message) fs
  | testSsh => exact h.same fs rfl rfl

/-! ### Runs -/

/-- **One event.** -/
theorem Traced.step (h : Traced s₀ es ((machine L).run s₀ es)) {e : SshEditorEvent}
    (hcalm : Calm ((machine L).run s₀ es) e) :
    Traced s₀ (es ++ [e]) (SshEditor.step ((machine L).run s₀ es) e) := by
  cases e with
  | newSsh => exact h.exchange _ (hcalm trivial) rfl rfl
  | editSsh uuid => exact h.editSsh uuid _
  | type input =>
    rw [SshEditor.step]
    split
    · exact h.type input _
    · exact h.stay _
  | testSsh =>
    rw [SshEditor.step]
    split
    · exact h.testSsh _
    · exact h.stay _
  | saveSsh =>
    rw [SshEditor.step]
    split
    · exact h.saveSsh _
    · exact h.stay _
  | cancel => exact h.same _ rfl rfl
  | serve i m =>
    rw [SshEditor.step]
    split
    · next r hi =>
      split
      · exact h.stay _
      · exact h.serve hi m _
    · exact h.stay _
  | worked i =>
    rw [SshEditor.step]
    split
    · next r hi =>
      split
      · next w hw => exact h.worked hi hw
      · exact h.stay _
    · exact h.stay _
  | answer i =>
    rw [SshEditor.step]
    split
    · next r hi =>
      split
      · next a ha =>
        have hsound := h.calls r (List.mem_of_getElem? hi)
        have hforget := h.forget i
        cases horigin : r.origin with
        | editSsh =>
          have hedits : ((((machine L).run s₀ es).calls[i]?).map SshCall.origin) = some .editSsh := by
            rw [hi, Option.map_some, horigin]
          have hcalm := hcalm hedits
          exact hforget.editSshDone (fun r' hr' => hcalm r' (List.mem_of_mem_eraseIdx hr')) _ _
        | saveSsh => exact hforget.saveSshDone _ _
        | testSsh =>
          rw [Sound, horigin, ha] at hsound
          exact hforget.testSshDone hsound.2.2 _
      · exact h.stay _
    · exact h.stay _
  | fail i message =>
    rw [SshEditor.step]
    split
    · next r hi => exact (h.forget i).done_error r.origin message _
    · exact h.stay _
  | elsewhere e => exact h.same _ rfl rfl

theorem traced_run {p : Process L} {cookie csrf : String} (es : List SshEditorEvent)
    (hcalm : (machine L).Along Calm (start p cookie csrf) es) :
    Traced (start p cookie csrf) es ((machine L).run (start p cookie csrf) es) := by
  induction es using List.reverseRecOn with
  | nil => exact ⟨.inl rfl, fun r hr => by cases hr⟩
  | append_singleton es e ih =>
    obtain ⟨hcalm, hlast⟩ := along_append.mp hcalm
    have hstep := (ih hcalm).step hlast.1
    rw [run_append]
    exact hstep

/-! ### What is stored -/

/-- The tables of the daemon. -/
def tables (s : SshEditor L) : Tables := Api.tables s.daemon.state

theorem daemon_done (s : SshEditor L) (origin : SshOrigin) (r : Except String Json.Fields) :
    (s.done origin r).daemon = s.daemon := by
  cases origin with
  | editSsh => cases r <;> rfl
  | saveSsh => cases r <;> rfl
  | testSsh =>
    cases r with
    | error message => rfl
    | ok o =>
      rw [done, SshEditor.testSshDone]
      split <;> rfl

/-- The events of the page itself. -/
def OnPage : SshEditorEvent → Prop
  | .serve _ _ | .worked _ | .elsewhere _ => False
  | _ => True

theorem daemon_step_of_page {e : SshEditorEvent} (he : OnPage e) :
    (SshEditor.step s e).daemon = s.daemon := by
  cases e with
  | serve i m => exact he.elim
  | worked i => exact he.elim
  | elsewhere e => exact he.elim
  | newSsh | cancel => rfl
  | editSsh uuid =>
    rw [SshEditor.step, SshEditor.editSsh]
    split <;> rfl
  | type input =>
    rw [SshEditor.step]
    split <;> rfl
  | testSsh =>
    rw [SshEditor.step]
    split <;> rfl
  | saveSsh =>
    rw [SshEditor.step, SshEditor.saveSsh]
    split
    · split
      · rfl
      · dsimp only
        split <;> rfl
    · rfl
  | answer i =>
    rw [SshEditor.step]
    split
    · split
      · exact daemon_done _ _ _
      · rfl
    · rfl
  | fail i message =>
    rw [SshEditor.step]
    split
    · exact daemon_done _ _ _
    · rfl

/-- The daemon serves the request of somebody, which puts the server. -/
def Puts (s : SshEditor L) (c : Call) (srv : SSHServer) : Prop :=
  Api.Answered (Api.serve c s.daemon.state) ∧ Api.requested s.tables c = some (.putSsh srv)

theorem ssh_serve {c : Call} {srv : SSHServer}
    (h : (Api.tables (Api.serve c s.daemon.state).1).ssh uuid = some srv) :
    s.tables.ssh uuid = some srv ∨ srv.uuid = uuid ∧ Puts s c srv := by
  rw [Api.tables_serve] at h
  split at h
  · next hanswered =>
    rcases Process.ssh_applyIf h with hold | ⟨hasked, huuid⟩
    · exact .inl hold
    · exact .inr ⟨huuid, hanswered, hasked⟩
  · exact .inl h

theorem ssh_runWork {w : Work} {srv : SSHServer}
    (h : (Api.tables (Api.runWork w s.daemon.state).1).ssh uuid = some srv) :
    s.tables.ssh uuid = some srv ∨ ∃ tested, w = .sshTest tested uuid ∧
      (presents s tested).ok = true ∧ (presents s tested).hostkey = srv.hostkey := by
  rw [Api.tables_runWork] at h
  rcases Process.ssh_applyIf h with hold | ⟨hpinned, rfl⟩
  · exact .inl hold
  · exact .inr (Api.tested_of_pinned hpinned)

/-- How a server comes into the table. -/
inductive Stored (s : SshEditor L) (srv : SSHServer) : SshEditorEvent → Prop
  | saved {i : Nat} {m : Moment} {r : SshCall} (hcall : s.calls[i]? = some r)
      (hnew : r.reply = none) (hputs : Puts s ⟨r.route, r.req, m⟩ srv) : Stored s srv (.serve i m)
  | tested {e : SshEditorEvent} {tested : SSHServer} (htests : Tests s tested srv.uuid e)
      (hok : (presents s tested).ok = true) (hkey : (presents s tested).hostkey = srv.hostkey) :
      Stored s srv e
  | sent {c : Call} (hputs : Puts s c srv) : Stored s srv (.elsewhere (.main (.request c)))

/-- The stores are keyed by the uuid. -/
theorem uuid_of_stored {srv : SSHServer} (h : s.tables.ssh uuid = some srv) : srv.uuid = uuid :=
  L.ssh.key_of_find h

theorem ssh_step {e : SshEditorEvent} {srv : SSHServer}
    (h : (SshEditor.step s e).tables.ssh uuid = some srv) :
    s.tables.ssh uuid = some srv ∨ Stored s srv e := by
  have huuid := uuid_of_stored h
  by_cases hpage : OnPage e
  · rw [tables, daemon_step_of_page hpage] at h
    exact .inl h
  · cases e with
    | serve i m =>
      rw [SshEditor.step] at h
      split at h
      · next r hi =>
        split at h
        · exact .inl h
        · next hreply =>
          have hnew : r.reply = none := by simpa using hreply
          exact (ssh_serve h).imp id fun hput => .saved hi hnew hput.2
      · exact .inl h
    | worked i =>
      rw [SshEditor.step] at h
      split at h
      · next r hi =>
        split at h
        · next w hw =>
          refine (ssh_runWork h).imp id ?_
          rintro ⟨tested, rfl, hok, hkey⟩
          exact .tested ⟨r, hi, huuid ▸ hw⟩ hok hkey
        · exact .inl h
      · exact .inl h
    | elsewhere e =>
      have h : (Api.tables ((Process.machine L).next s.daemon e).state).ssh uuid = some srv := h
      rw [Process.tables_next] at h
      refine (Process.ssh_applyIf h).imp id ?_
      rintro ⟨hwritten, -⟩
      cases e with
      | main e =>
        cases e with
        | request c =>
          rw [Process.written] at hwritten
          split at hwritten
          · next hanswered => exact .sent ⟨hanswered, hwritten⟩
          · cases hwritten
        | _ => cases hwritten
      | handshake cookie now => cases hwritten
      | done j =>
        obtain ⟨⟨c, w⟩, htask, hpinned⟩ := Option.bind_eq_some_iff.mp hwritten
        obtain ⟨tested, rfl, hok, hkey⟩ := Api.tested_of_pinned hpinned
        exact .tested ⟨c, htask⟩ hok hkey
    | _ => exact absurd trivial hpage

/-- Where the host key of a server comes from. -/
inductive KeySource (s₀ : SshEditor L) (es : List SshEditorEvent) (uuid key : String) : Prop
  /-- It was there at the beginning. -/
  | stored (srv : SSHServer) (h : s₀.tables.ssh uuid = some srv) (hkey : srv.hostkey = key)
  /-- The server presented it. -/
  | presented (h : Presented s₀ es uuid key)
  /-- The page added the server with a key that was presented in a test of a new server: the
  daemon accepted the POST that brought it along. -/
  | added (pre post : List SshEditorEvent) (i : Nat) (m : Moment) (r : SshCall)
      (hes : es = pre ++ .serve i m :: post)
      (hcall : ((machine L).run s₀ pre).calls[i]? = some r) (hnew : r.reply = none)
      (hroute : r.route = .postSsh)
      (hanswered : Api.Answered
        (Api.serve ⟨r.route, r.req, m⟩ ((machine L).run s₀ pre).daemon.state))
      (huuid : m.uuid = uuid) (hkey : Api.bodyHostkey ⟨r.route, r.req, m⟩ = key)
      (h : Presented s₀ pre "" key)
  /-- Somebody else brought it along, for a new server with this uuid or for the stored one. -/
  | sent (pre post : List SshEditorEvent) (c : Call)
      (hes : es = pre ++ .elsewhere (.main (.request c)) :: post)
      (hanswered : Api.Answered (Api.serve c ((machine L).run s₀ pre).daemon.state))
      (hroute : c.route = .postSsh ∧
        (JsonMap.sshServerFromJson c.moment.uuid (parseBody c.req)).uuid = uuid ∨
          c.route = .putSsh uuid)
      (hkey : Api.bodyHostkey c = key)

theorem KeySource.append (h : KeySource s₀ es uuid key) (e : SshEditorEvent) :
    KeySource s₀ (es ++ [e]) uuid key := by
  cases h with
  | stored srv h hkey => exact .stored srv h hkey
  | presented h => exact .presented (h.append [e])
  | added pre post i m r hes hcall hnew hroute hanswered huuid hkey h =>
    exact .added pre (post ++ [e]) i m r (by simp [hes]) hcall hnew hroute hanswered huuid hkey h
  | sent pre post c hes hanswered hroute hkey =>
    exact .sent pre (post ++ [e]) c (by simp [hes]) hanswered hroute hkey

/-- A save brings a key that was presented, unless it leaves the stored one. -/
theorem keySource_saved (h : Traced s₀ es ((machine L).run s₀ es)) {i : Nat} {m : Moment}
    {r : SshCall} {srv : SSHServer} (hi : ((machine L).run s₀ es).calls[i]? = some r)
    (hnew : r.reply = none) (hanswered : Api.Answered
      (Api.serve ⟨r.route, r.req, m⟩ ((machine L).run s₀ es).daemon.state))
    (hkey : Api.bodyHostkey ⟨r.route, r.req, m⟩ = srv.hostkey) (hne : srv.hostkey ≠ "")
    (hroute : r.route = .postSsh ∧
      (JsonMap.sshServerFromJson m.uuid (parseBody r.req)).uuid = srv.uuid ∨
        r.route = .putSsh srv.uuid) :
    KeySource s₀ (es ++ [.serve i m]) srv.uuid srv.hostkey := by
  have hsound := h.calls r (List.mem_of_getElem? hi)
  have hpresented : ∀ {u}, Captured s₀ es u (bodyKey r.req) → Presented s₀ es u srv.hostkey :=
    fun hcaptured => hkey ▸ hcaptured.resolve_left fun hnone => hne (hkey ▸ hnone)
  rw [Sound] at hsound
  split at hsound
  · obtain ⟨u, hget⟩ := hsound
    rw [hget] at hroute
    rcases hroute with ⟨hpost, -⟩ | hput
    · cases hpost
    · cases hput
  · rcases hsound with ⟨hpost, hfresh, hcaptured⟩ | ⟨u, hput, hcaptured⟩
    · rcases hroute with ⟨-, huuid⟩ | hput
      · refine .added es [] i m r rfl hi hnew hpost hanswered ?_ hkey (hpresented hcaptured)
        rw [JsonMap.sshServerFromJson, hfresh] at huuid
        exact huuid
      · rw [hpost] at hput
        cases hput
    · rcases hroute with ⟨hpost, -⟩ | hroute
      · rw [hput] at hpost
        cases hpost
      · obtain rfl := Route.putSsh.inj (hput.symm.trans hroute)
        exact .presented ((hpresented hcaptured).append _)
  · obtain ⟨htest, -⟩ := hsound
    rw [htest] at hroute
    rcases hroute with ⟨hpost, -⟩ | hput
    · cases hpost
    · cases hput

/-- **The page makes up no host keys.** In a run in which the form is not exchanged while a
test is under way, the host key stored for a server was stored at the beginning, or the server
presented it in a test that succeeded, or the server was added by a POST of the page with a
key that was presented in a test of a new server, or somebody else brought the key along in a
request for this server that the daemon accepted. -/
theorem hostkey_source (p : Process L) (cookie csrf : String) {es : List SshEditorEvent}
    (hcalm : (machine L).Along Calm (start p cookie csrf) es) {uuid : String} {srv : SSHServer}
    (h : ((machine L).run (start p cookie csrf) es).tables.ssh uuid = some srv)
    (hne : srv.hostkey ≠ "") : KeySource (start p cookie csrf) es uuid srv.hostkey := by
  induction es using List.reverseRecOn generalizing srv with
  | nil => exact .stored srv h rfl
  | append_singleton es e ih =>
    have hbefore := (along_append.mp hcalm).1
    obtain rfl := uuid_of_stored h
    rw [run_append, run_cons, run_nil] at h
    rcases ssh_step h with hold | hstored
    · exact (ih hbefore hold hne).append e
    · cases hstored with
      | tested htests hok hkey => exact .presented ⟨es, e, [], _, rfl, htests, hok, hkey⟩
      | saved hi hnew hputs =>
        rcases Api.hostkey_of_requested hputs.2 with ⟨hkey, hroute⟩ | ⟨existing, hfound, hkey⟩
        · exact keySource_saved (traced_run es hbefore) hi hnew hputs.1 hkey hne hroute
        · exact hkey ▸ (ih hbefore hfound (hkey ▸ hne)).append _
      | sent hputs =>
        rcases Api.hostkey_of_requested hputs.2 with ⟨hkey, hroute⟩ | ⟨existing, hfound, hkey⟩
        · exact .sent es [] _ rfl hputs.1 hroute hkey
        · exact hkey ▸ (ih hbefore hfound (hkey ▸ hne)).append _

/-! ### A server that is added -/

/-- A network with one server, which shows its key. -/
def oneServer : HostSystem :=
  { Reference.system with
    sshTest := fun _ _ => ⟨true, "SHA256:x", "ssh-ed25519 x", ""⟩ }

/-- A page of a daemon on it. -/
def fresh : SshEditor (Reference.libraryOn oneServer fun _ => "") :=
  start { main := { state := Reference.stateOn oneServer (fun _ => "") ∅ (), schedulerState := ∅ }
          pool := [] } "tibackup_sid=sid" "csrf"

/-- The server is entered, tested and saved. -/
def adding : List SshEditorEvent :=
  [.newSsh, .type (.name "nas"), .type (.host "nas.lan"), .type (.username "backup"), .testSsh,
    .serve 0 (Reference.moment ""), .worked 0, .answer 0, .saveSsh,
    .serve 0 (Reference.moment "0a1b2c3d")]

/-- The server as it is stored. -/
def added : SSHServer where
  uuid := "0a1b2c3d"
  name := "nas"
  host := "nas.lan"
  port := 22
  username := "backup"
  keyfile := ""
  keypass := ""
  hostkey := "ssh-ed25519 x"

theorem added_adding : ((machine _).run fresh adding).tables.ssh "0a1b2c3d" = some added := by
  rfl

/-- The test is over before anything else is done with the form. -/
theorem calm_adding : (machine _).Along Calm fresh adding :=
  ⟨fun _ r hr => (by cases hr), False.elim, False.elim, False.elim, False.elim, False.elim,
    False.elim, fun hedits => absurd hedits (by decide), False.elim, False.elim, trivial⟩

/-- Its key was presented in the test. -/
theorem hostkey_source_adding : KeySource fresh adding "0a1b2c3d" "ssh-ed25519 x" :=
  hostkey_source _ _ _ calm_adding added_adding (by decide)

end SshEditor

end TiBackup
