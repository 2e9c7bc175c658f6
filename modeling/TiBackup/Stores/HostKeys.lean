import TiBackup.Stores.Ledger

/-!
# TiBackup.Stores.HostKeys

**Where a pinned SSH host key comes from.** A backup over SSH trusts the host key that is
stored for its server. In every state of every run that key was stored at the beginning,
or an accepted request brought it along for this server, or the server itself presented it
in a connection test that succeeded (`KeyGiven`). A record that is put without a key keeps
the one that is stored, and no key goes from one server to another.
-/

namespace TiBackup

open Lib Lib.Machine

variable {L : Library}

namespace Api

/-- The host key in the body of a request. -/
def bodyHostkey (c : Call) : String := ((parseBody c.req).get "hostkey").toString

theorem hostkey_putSshRecord (uuid : String) (existing : SSHServer) (c : Call) :
    (putSshRecord uuid existing c.moment c.req).hostkey =
      if (bodyHostkey c).isEmpty then existing.hostkey else bodyHostkey c := by
  rw [putSshRecord, keepSshSecrets_eq]
  rfl

theorem uuid_putSshRecord (uuid : String) (existing : SSHServer) (c : Call) :
    (putSshRecord uuid existing c.moment c.req).uuid = uuid := by
  rw [putSshRecord, keepSshSecrets_eq]

/-- A request that puts a server gives it the host key of its body, or the one it has. -/
theorem hostkey_of_requested {T : Tables} {c : Call} {srv : SSHServer}
    (h : requested T c = some (.putSsh srv)) :
    bodyHostkey c = srv.hostkey ∧
      (c.route = .postSsh ∧
        (JsonMap.sshServerFromJson c.moment.uuid (parseBody c.req)).uuid = srv.uuid ∨
          c.route = .putSsh srv.uuid) ∨
    ∃ existing, T.ssh srv.uuid = some existing ∧ existing.hostkey = srv.hostkey := by
  obtain ⟨r, req, m⟩ := c
  cases r with
  | postSsh =>
    have hsrv : JsonMap.sshServerFromJson m.uuid (parseBody req) = srv :=
      Write.putSsh.inj (Option.some.inj h)
    subst hsrv
    exact .inl ⟨rfl, .inl ⟨rfl, rfl⟩⟩
  | putSsh uuid =>
    obtain ⟨existing, hfound, hsrv⟩ := Option.map_eq_some_iff.mp h
    have hsrv : putSshRecord uuid existing m req = srv := Write.putSsh.inj hsrv
    have huuid : srv.uuid = uuid := hsrv ▸ uuid_putSshRecord uuid existing ⟨.putSsh uuid, req, m⟩
    have hkey := hostkey_putSshRecord uuid existing ⟨.putSsh uuid, req, m⟩
    rw [hsrv] at hkey
    split at hkey
    · exact .inr ⟨existing, huuid ▸ hfound, hkey.symm⟩
    · exact .inl ⟨hkey.symm, .inr (by rw [huuid])⟩
  | putPbs uuid =>
    obtain ⟨existing, -, hsrv⟩ := Option.map_eq_some_iff.mp h
    cases hsrv
  | _ => cases h

/-- A worker that writes has tested a connection. -/
theorem tested_of_pinned {w : Work} {st : State L} {srv : SSHServer}
    (h : pinned w st = some (.putSsh srv)) :
    ∃ tested, w = .sshTest tested srv.uuid ∧ (L.system.sshTest st.host tested).ok = true ∧
      (L.system.sshTest st.host tested).hostkey = srv.hostkey := by
  cases w with
  | sshTest tested uuid =>
    simp only [pinned] at h
    split at h
    · next hpins =>
      have hsrv := Write.putSsh.inj (Option.some.inj h)
      subst hsrv
      simp only [pins, Bool.and_eq_true] at hpins
      exact ⟨tested, rfl, hpins.1.1, rfl⟩
    · cases h
  | _ => cases h

end Api

namespace Process

/-- The host key was given to the server, at the beginning or in the course of the run. -/
inductive KeyGiven (p : Process L) (uuid key : String) (es : List Happening) : Prop
  | stored (srv : SSHServer) (h : (Api.tables p.state).ssh uuid = some srv)
      (hkey : srv.hostkey = key)
  | sent (pre : List Happening) (c : Call) (post : List Happening)
      (hes : es = pre ++ .main (.request c) :: post)
      (hroute : c.route = .postSsh ∧
        (JsonMap.sshServerFromJson c.moment.uuid (parseBody c.req)).uuid = uuid ∨
          c.route = .putSsh uuid)
      (hanswered : Api.Answered (Api.serve c ((machine L).run p pre).state))
      (hkey : Api.bodyHostkey c = key)
  | presented (pre : List Happening) (i : Nat) (post : List Happening) (c : Call)
      (srv : SSHServer) (hes : es = pre ++ .done i :: post)
      (htask : ((machine L).run p pre).pool[i]? = some ⟨c, .sshTest srv uuid⟩)
      (hok : (L.system.sshTest ((machine L).run p pre).state.host srv).ok = true)
      (hkey : (L.system.sshTest ((machine L).run p pre).state.host srv).hostkey = key)

theorem KeyGiven.append {p : Process L} {uuid key : String} {es : List Happening}
    (h : KeyGiven p uuid key es) (e : Happening) : KeyGiven p uuid key (es ++ [e]) := by
  cases h with
  | stored srv h hkey => exact .stored srv h hkey
  | sent pre c post hes hroute hanswered hkey =>
    exact .sent pre c (post ++ [e]) (by simp [hes]) hroute hanswered hkey
  | presented pre i post c srv hes htask hok hkey =>
    exact .presented pre i (post ++ [e]) c srv (by simp [hes]) htask hok hkey

/-- What an event may put into the table of SSH servers. -/
theorem ssh_applyIf {T : Tables} {w : Option Write} {uuid : String} {srv : SSHServer}
    (h : (T.applyIf w).ssh uuid = some srv) :
    T.ssh uuid = some srv ∨ w = some (.putSsh srv) ∧ srv.uuid = uuid := by
  cases w with
  | none => exact .inl h
  | some w =>
    cases w with
    | putSsh srv' =>
      simp only [Tables.applyIf_some, Tables.apply, Function.update_apply] at h
      split at h
      · next hk =>
        obtain rfl := Option.some.inj h
        exact .inr ⟨rfl, hk.symm⟩
      · exact .inl h
    | dropSsh uuid' =>
      simp only [Tables.applyIf_some, Tables.apply, Function.update_apply] at h
      split at h
      · cases h
      · exact .inl h
    | _ => exact .inl h

/-- **Every pinned host key was given to its server.** -/
theorem hostkey_given (p : Process L) (es : List Happening) {uuid : String} {srv : SSHServer}
    (h : Api.getSshByUuid ((machine L).run p es).state uuid = some srv) :
    KeyGiven p uuid srv.hostkey es := by
  induction es using List.reverseRecOn generalizing srv with
  | nil => exact .stored srv h rfl
  | append_singleton es e ih =>
    have h : (Api.tables ((machine L).run p (es ++ [e])).state).ssh uuid = some srv := h
    rw [run_append, run_cons, run_nil, tables_next] at h
    rcases ssh_applyIf h with hold | ⟨hwritten, rfl⟩
    · exact (ih hold).append e
    · cases e with
      | main e =>
        cases e with
        | request c =>
          rw [written] at hwritten
          split at hwritten
          · next hanswered =>
            rcases Api.hostkey_of_requested hwritten with ⟨hkey, hroute⟩ | ⟨existing, hfound, hkey⟩
            · exact .sent es c [] rfl hroute hanswered hkey
            · exact hkey ▸ (ih hfound).append _
          · cases hwritten
        | _ => cases hwritten
      | handshake cookie now => cases hwritten
      | done i =>
        obtain ⟨⟨c, w⟩, htask, hpinned⟩ := Option.bind_eq_some_iff.mp hwritten
        obtain ⟨tested, rfl, hok, hkey⟩ := Api.tested_of_pinned hpinned
        exact .presented es i [] c tested rfl htask hok hkey

/-- A server that is added with a host key. -/
def addCall : Call where
  route := .postSsh
  req := Reference.request (.obj [("name", .str "nas"), ("host", .str "nas.lan"),
    ("username", .str "backup"), ("hostkey", .str "SHA256:x")])
  moment := Reference.moment "0a1b2c3d"

/-- A process with empty stores that somebody is signed in to. -/
def signedIn : Process Reference.library where
  main := { state := Reference.initial, schedulerState := ∅ }
  pool := []

theorem addCall_adds :
    Api.getSshByUuid ((machine _).run signedIn [.main (.request addCall)]).state "0a1b2c3d" =
      some (JsonMap.sshServerFromJson "0a1b2c3d" (parseBody addCall.req)) := by
  have hanswered : Api.Answered (Api.serve addCall signedIn.state) := by
    unfold Api.Answered
    decide +kernel
  have hwritten : written signedIn (.main (.request addCall)) =
      some (.putSsh (JsonMap.sshServerFromJson "0a1b2c3d" (parseBody addCall.req))) := by
    rw [written]
    exact if_pos hanswered
  have hrun := tables_run signedIn [.main (.request addCall)]
  rw [ledger, ledger, hwritten] at hrun
  exact (congrArg (fun T : Tables => T.ssh "0a1b2c3d") hrun).trans rfl

/-- It was given the key by the request that added it. -/
theorem hostkey_given_addCall : KeyGiven signedIn "0a1b2c3d" "SHA256:x" [.main (.request addCall)] :=
  hostkey_given signedIn [.main (.request addCall)] addCall_adds

end Process

end TiBackup
