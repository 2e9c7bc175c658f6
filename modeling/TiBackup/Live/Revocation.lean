import TiBackup.Model.Reference
import TiBackup.Model.WsHub

/-!
# TiBackup.Live.Revocation

**Who gets the live messages.** A session is checked when its socket is upgraded, and
never again: a socket stays in the list of clients until it disconnects, whatever
becomes of its session (`message_after_logout`). What does hold is that the check was
made: every job status and log line goes to a socket whose cookie named a valid session
when the upgrade was checked, and that has not disconnected since it was taken over
(`live_messages_authorised`).

Both facts are read off the history. `Checks` and `Takes` say what one event does for a
socket, and two invariants over the run keep the events: pending sockets passed the
verifier, clients passed whichever check there is.
-/

namespace TiBackup

open Lib Lib.Machine

namespace LiveChannel

/-- `validate` would accept the session a socket's handshake named. -/
def SessionValid (sessions : SessionStore) (now : Int) (ws : WebSocket) : Prop :=
  (sessions.validate now (wsCookieTokenFromHeader ws.cookie)).2 = true

/-- The event checks the handshake of this socket, and it passes. -/
def Checks (verifies : Bool) (c : LiveChannel) (e : LiveEvent) (ws : WebSocket) : Prop :=
  match e with
  | .upgrade path cookie now =>
    verifies = true ∧ path = "/ws" ∧ ws = ⟨c.nextId, cookie⟩ ∧ SessionValid c.sessions now ws
  | .newWebSocketConnection now =>
    verifies = false ∧ ws ∈ c.pending ∧ SessionValid c.sessions now ws
  | _ => False

/-- The event takes this socket over. -/
def Takes (c : LiveChannel) (e : LiveEvent) (ws : WebSocket) : Prop :=
  ws ∈ c.pending ∧ ∃ now, e = .newWebSocketConnection now

section

variable (verifies : Bool) (version : String) (c₀ : LiveChannel)

/-- Somewhere in the run the handshake of the socket passed its check. -/
def Authorised (es : List LiveEvent) (ws : WebSocket) : Prop :=
  ∃ pre e post, es = pre ++ e :: post ∧
    Checks verifies ((machine verifies version).run c₀ pre) e ws

/-- Somewhere in the run the socket was taken over, and it has not disconnected since. -/
def Connected (es : List LiveEvent) (ws : WebSocket) : Prop :=
  ∃ pre e post, es = pre ++ e :: post ∧
    Takes ((machine verifies version).run c₀ pre) e ws ∧ ∀ d ∈ post, d ≠ .disconnected ws.id

end

variable {verifies : Bool} {version : String} {c₀ : LiveChannel} {ws : WebSocket}

theorem Authorised.snoc {es : List LiveEvent} (h : Authorised verifies version c₀ es ws)
    (e : LiveEvent) : Authorised verifies version c₀ (es ++ [e]) ws := by
  obtain ⟨pre, d, post, rfl, hchecks⟩ := h
  exact ⟨pre, d, post ++ [e], by simp, hchecks⟩

theorem Connected.snoc {es : List LiveEvent} (h : Connected verifies version c₀ es ws)
    {e : LiveEvent} (he : e ≠ .disconnected ws.id) : Connected verifies version c₀ (es ++ [e]) ws := by
  obtain ⟨pre, d, post, rfl, htakes, hpost⟩ := h
  refine ⟨pre, d, post ++ [e], by simp, htakes, ?_⟩
  intro d' hd'
  rcases List.mem_append.mp hd' with hd' | hd'
  · exact hpost d' hd'
  · rwa [List.mem_singleton.mp hd']

theorem authorised_snoc_of_checks {es : List LiveEvent} {e : LiveEvent}
    (h : Checks verifies ((machine verifies version).run c₀ es) e ws) :
    Authorised verifies version c₀ (es ++ [e]) ws :=
  ⟨es, e, [], rfl, h⟩

theorem connected_snoc_of_takes {es : List LiveEvent} {e : LiveEvent}
    (h : Takes ((machine verifies version).run c₀ es) e ws) :
    Connected verifies version c₀ (es ++ [e]) ws :=
  ⟨es, e, [], rfl, h, fun _ hd => absurd hd List.not_mem_nil⟩

/-! ### One event -/

/-- A session that is valid after another one was validated was valid before. -/
theorem sessionValid_of_validate {sessions : SessionStore} {now : Int} {token : String}
    (h : SessionValid (sessions.validate now token).1 now ws) : SessionValid sessions now ws := by
  rw [SessionValid, SessionStore.validate_snd, Bool.and_eq_true] at h ⊢
  refine ⟨h.1, ?_⟩
  have hentry := SessionStore.sessions_validate sessions now token (wsCookieTokenFromHeader ws.cookie)
  rw [hentry, SessionStore.ttl_validate] at h
  split at h
  · cases halive : SessionStore.alive sessions.ttl now
        sessions.sessions[wsCookieTokenFromHeader ws.cookie]? with
    | none =>
      rw [halive] at h
      exact h.2
    | some s => rfl
  · exact h.2

/-- Whoever is a client after the pending sockets were taken over was one before, or was
pending and passed the check, if it was made here. -/
theorem mem_acceptPending {now : Int} {pending : List WebSocket} {sessions : SessionStore}
    {clients : List WebSocket}
    (h : ws ∈ (WsHub.acceptPending verifies now pending sessions clients).2.1) :
    ws ∈ clients ∨ ws ∈ pending ∧ (verifies = false → SessionValid sessions now ws) := by
  induction pending generalizing sessions clients with
  | nil => exact .inl h
  | cons w pending ih =>
    rw [WsHub.acceptPending] at h
    cases verifies with
    | true =>
      rcases ih h with hclient | ⟨hpending, hvalid⟩
      · rcases List.mem_append.mp hclient with hclient | hnew
        · exact .inl hclient
        · rw [List.mem_singleton.mp hnew]
          exact .inr ⟨by simp, nofun⟩
      · exact .inr ⟨List.mem_cons_of_mem w hpending, nofun⟩
    | false =>
      simp only [Bool.false_eq_true, if_false] at h
      by_cases hvalid : (sessions.validate now (wsCookieTokenFromHeader w.cookie)).2 = true
      · simp only [hvalid, Bool.not_true, Bool.false_eq_true, if_false] at h
        rcases ih h with hclient | ⟨hpending, hlater⟩
        · rcases List.mem_append.mp hclient with hclient | hnew
          · exact .inl hclient
          · rw [List.mem_singleton.mp hnew]
            exact .inr ⟨by simp, fun _ => hvalid⟩
        · refine .inr ⟨List.mem_cons_of_mem w hpending, ?_⟩
          intro hv
          exact sessionValid_of_validate (hlater hv)
      · simp only [hvalid, Bool.not_false, if_true] at h
        rcases ih h with hclient | ⟨hpending, hlater⟩
        · exact .inl hclient
        · refine .inr ⟨List.mem_cons_of_mem w hpending, ?_⟩
          intro hv
          exact sessionValid_of_validate (hlater hv)

/-- A socket that is pending after an event was pending before, or it was upgraded now:
when upgrades are verified, it passed. -/
theorem mem_pending_next {c : LiveChannel} {e : LiveEvent}
    (h : ws ∈ ((machine verifies version).next c e).pending) :
    ws ∈ c.pending ∨ verifies = false ∨ Checks verifies c e ws := by
  cases e with
  | upgrade path cookie now =>
    cases verifies with
    | false => exact .inr (.inl rfl)
    | true =>
      simp only [next, machine, step, if_true] at h
      split at h
      · exact .inl h
      · next hpath =>
        split at h
        · next hvalid =>
          rcases List.mem_append.mp h with hold | hnew
          · exact .inl hold
          · rw [List.mem_singleton.mp hnew]
            exact .inr (.inr ⟨rfl, not_not.mp hpath, rfl, hvalid⟩)
        · exact .inl h
  | newWebSocketConnection now => exact absurd h List.not_mem_nil
  | _ => exact .inl h

/-- A socket that is a client after an event was one before and did not disconnect, or it
was taken over now: when upgrades are not verified, it passed the check. -/
theorem mem_clients_next {c : LiveChannel} {e : LiveEvent}
    (h : ws ∈ ((machine verifies version).next c e).hub.clients) :
    ws ∈ c.hub.clients ∧ e ≠ .disconnected ws.id ∨
      Takes c e ws ∧ (verifies = true ∨ Checks verifies c e ws) := by
  cases e with
  | upgrade path cookie now =>
    refine .inl ⟨?_, by simp⟩
    simp only [next, machine, step] at h
    split at h
    · split at h
      · exact h
      · split at h
        · exact h
        · exact h
    · exact h
  | newWebSocketConnection now =>
    rcases mem_acceptPending h with hclient | ⟨hpending, hvalid⟩
    · exact .inl ⟨hclient, by simp⟩
    · refine .inr ⟨⟨hpending, now, rfl⟩, ?_⟩
      cases verifies with
      | true => exact .inl rfl
      | false => exact .inr ⟨rfl, hpending, hvalid rfl⟩
  | disconnected id =>
    obtain ⟨hclient, hid⟩ := List.mem_filter.mp h
    refine .inl ⟨hclient, ?_⟩
    intro heq
    rw [LiveEvent.disconnected.injEq] at heq
    simp [heq] at hid
  | logChanged now =>
    exact .inl ⟨WsHub.clients_emitLogTail c.hub c.log ▸ h, by simp⟩
  | session call => exact .inl ⟨h, by simp⟩
  | statusChanged name s now => exact .inl ⟨h, by simp⟩
  | logAppended chunk => exact .inl ⟨h, by simp⟩
  | logTruncated => exact .inl ⟨h, by simp⟩

/-! ### The run -/

/-- Along a run from start-up, clients were checked and taken over, and so were, when
upgrades are verified, the sockets that are pending. -/
theorem clients_authorised (sessions : SessionStore) (log : Option Bytes) (es : List LiveEvent) :
    (verifies = true → ∀ ws ∈ ((machine verifies version).run (start sessions log) es).pending,
        Authorised verifies version (start sessions log) es ws) ∧
      ∀ ws ∈ ((machine verifies version).run (start sessions log) es).hub.clients,
        Authorised verifies version (start sessions log) es ws ∧
          Connected verifies version (start sessions log) es ws := by
  induction es using List.reverseRecOn with
  | nil => exact ⟨fun _ _ hws => absurd hws List.not_mem_nil, fun _ hws => absurd hws List.not_mem_nil⟩
  | append_singleton es e ih =>
    obtain ⟨hpending, hclients⟩ := ih
    rw [run_append, run_cons, run_nil]
    constructor
    · intro hverifies ws hws
      rcases mem_pending_next hws with hold | hnot | hchecks
      · exact (hpending hverifies ws hold).snoc e
      · rw [hverifies] at hnot
        cases hnot
      · exact authorised_snoc_of_checks hchecks
    · intro ws hws
      rcases mem_clients_next hws with ⟨hold, hstays⟩ | ⟨htakes, hchecked⟩
      · obtain ⟨hauthorised, hconnected⟩ := hclients ws hold
        exact ⟨hauthorised.snoc e, hconnected.snoc hstays⟩
      · refine ⟨?_, connected_snoc_of_takes htakes⟩
        -- A verified socket passed when it was upgraded, any other one passes now.
        rcases hchecked with hverifies | hchecks
        · exact (hpending hverifies ws htakes.1).snoc e
        · exact authorised_snoc_of_checks hchecks

/-- Whatever is sent that is not a greeting goes to a client. -/
theorem mem_clients_of_sent {c : LiveChannel} {e : LiveEvent} {msg : Message}
    (h : (ws, msg) ∈ ((machine verifies version).out c e).sent) :
    msg = .hello version ∨ ws ∈ c.hub.clients := by
  have hsend : ∀ {hub : WsHub} {msgs : List Message}, (ws, msg) ∈ (send hub msgs).sent →
      ws ∈ hub.clients := by
    intro hub msgs hmem
    obtain ⟨m, -, hm⟩ := List.mem_flatMap.mp hmem
    obtain ⟨w, hw, heq⟩ := List.mem_map.mp hm
    rwa [← (Prod.mk.inj heq).1]
  cases e with
  | newWebSocketConnection now =>
    obtain ⟨w, -, heq⟩ := List.mem_map.mp h
    exact .inl (Prod.mk.inj heq).2.symm
  | statusChanged name s now => exact .inr (hsend h)
  | logChanged now =>
    have hclient := hsend h
    rw [WsHub.clients_emitLogTail] at hclient
    exact .inr hclient
  | upgrade path cookie now =>
    simp only [out, machine, step] at h
    split at h
    · split at h
      · exact absurd h List.not_mem_nil
      · split at h
        · exact absurd h List.not_mem_nil
        · exact absurd h List.not_mem_nil
    · exact absurd h List.not_mem_nil
  | session call => exact absurd h List.not_mem_nil
  | disconnected id => exact absurd h List.not_mem_nil
  | logAppended chunk => exact absurd h List.not_mem_nil
  | logTruncated => exact absurd h List.not_mem_nil

/-- **Authorised at the upgrade.** In every run from start-up, a job status or log line
goes to sockets only whose cookie named a valid session when their upgrade was checked,
and that have not disconnected since they were taken over. -/
theorem live_messages_authorised (verifies : Bool) (version : String) (sessions : SessionStore)
    (log : Option Bytes) (es : List LiveEvent) (e : LiveEvent) (ws : WebSocket) (msg : Message)
    (hsent : (ws, msg) ∈
      ((machine verifies version).out ((machine verifies version).run (start sessions log) es) e).sent)
    (hmsg : msg ≠ .hello version) :
    Authorised verifies version (start sessions log) es ws ∧
      Connected verifies version (start sessions log) es ws := by
  rcases mem_clients_of_sent hsent with hhello | hclient
  · exact absurd hhello hmsg
  · exact (clients_authorised sessions log es).2 ws hclient

/-- The Cookie header of a browser that is signed in with the reference token. -/
def sessionCookie : Bytes :=
  toUtf8 ("tibackup_sid=" ++ SessionStore.randomToken Reference.rawToken)

/-- The admin signs in, and the browser connects. -/
def signedIn : List LiveEvent :=
  [.session (.createSession Reference.rawToken Reference.rawToken 0 0),
    .upgrade "/ws" sessionCookie 1, .newWebSocketConnection 1]

/-- And signs out again. -/
def signedOut : List LiveEvent :=
  signedIn ++ [.session (.drop (SessionStore.randomToken Reference.rawToken) 2)]

theorem live_messages_authorised_signedIn :
    ((⟨0, sessionCookie⟩, .jobStatus "photos" "running") : WebSocket × Message) ∈
        ((machine true "1").out ((machine true "1").run (start {} none) signedIn)
          (.statusChanged "photos" .running 2)).sent ∧
      Message.jobStatus "photos" "running" ≠ .hello "1" ∧
      Authorised true "1" (start {} none) signedIn ⟨0, sessionCookie⟩ ∧
      Connected true "1" (start {} none) signedIn ⟨0, sessionCookie⟩ := by
  have hsent : ((⟨0, sessionCookie⟩, .jobStatus "photos" "running") : WebSocket × Message) ∈
      ((machine true "1").out ((machine true "1").run (start {} none) signedIn)
        (.statusChanged "photos" .running 2)).sent := by decide +kernel
  have hmsg : Message.jobStatus "photos" "running" ≠ .hello "1" := nofun
  exact ⟨hsent, hmsg, live_messages_authorised true "1" {} none signedIn _ _ _ hsent hmsg⟩

/-- After the logout the socket still gets the job status. -/
theorem message_after_logout :
    ((⟨0, sessionCookie⟩, .jobStatus "photos" "running") : WebSocket × Message) ∈
        ((machine true "1").out ((machine true "1").run (start {} none) signedOut)
          (.statusChanged "photos" .running 3)).sent ∧
      ¬SessionValid ((machine true "1").run (start {} none) signedOut).sessions 3
        ⟨0, sessionCookie⟩ := by
  constructor
  · decide +kernel
  · have hdropped : (((machine true "1").run (start {} none) signedOut).sessions.validate 3
        (wsCookieTokenFromHeader sessionCookie)).2 = false := by decide +kernel
    rw [SessionValid, hdropped]
    exact Bool.false_ne_true

end LiveChannel

end TiBackup
