import TiBackup.Auth.Admission
import TiBackup.Stores.Preferences
import TiBackup.Stores.Runs

/-!
# TiBackup.Stores.Protected

**What of the configuration the network can reach.** The keys that some request may set
are the two of the credential and the preferences (`settableKeys`). All others, such as
the folder of the scripts and the lifetime of a session, have the same value in every
state of every run (`getValue_run`), whatever is sent to the daemon and however often it
is restarted.
-/

namespace TiBackup

open Lib Lib.Machine

variable {L : Library}

/-- The keys of the admin credential. -/
def credentialKeys : List String := ["web/salt", "web/passhash"]

/-- The keys that some request may set. -/
def settableKeys : List String := credentialKeys ++ prefTable.map Prod.fst

/-- The credential is no preference. -/
theorem not_pref_of_credential {k : String} (h : k ∈ credentialKeys) :
    k ∉ prefTable.map Prod.fst := by
  simp only [credentialKeys, List.mem_cons, List.not_mem_nil, or_false] at h
  rcases h with rfl | rfl
  · decide
  · decide

namespace Api

theorem getValue_of_conf_eq {st st' : State L} (h : st'.conf = st.conf) (k : String) :
    st'.getValue k = st.getValue k := by
  rw [State.getValue, State.getValue, h]

theorem getValue_setPassword {k : String} (hk : k ∉ credentialKeys) (pw : String)
    (rawSalt : { raw : Bytes // raw.length = 16 }) (st : State L) :
    (setPassword pw rawSalt st).getValue k = st.getValue k := by
  have hsalt : k ≠ "web/salt" := fun h => hk (by simp [credentialKeys, h])
  have hhash : k ≠ "web/passhash" := fun h => hk (by simp [credentialKeys, h])
  rw [setPassword, State.getValue_setValue_of_ne _ hhash, State.getValue_setValue_of_ne _ hsalt]

theorem getValue_putPrefs_of_not_mem {k : String} (hk : k ∉ prefTable.map Prod.fst)
    (req : Request) (m : Moment) (st : State L) :
    (putPrefs req m st).1.getValue k = st.getValue k := by
  by_cases h : CsrfVerified st m.now req
  · rw [getValue_putPrefs h, ValueStore.written_of_not_mem hk, Option.getD_none]
  · exact getValue_of_conf_eq (conf_putPrefs_of_rejected h) k

/-- A request changes a key only if it signs somebody in and the key is one of the
credential, or if it sets preferences and the key is one of these. -/
theorem getValue_serve (c : Call) (st : State L) (k : String) :
    (serve c st).1.getValue k = st.getValue k ∨ SignsIn st c ∧ k ∈ credentialKeys ∨
      c.route = .putPrefs ∧ k ∈ prefTable.map Prod.fst := by
  obtain ⟨r, req, m⟩ := c
  cases hwrites : r.writes .conf with
  | false => exact .inl (getValue_of_conf_eq (handle_frame hwrites req m st) k)
  | true =>
    cases r with
    | setup =>
      rcases setup_cases req m st with ⟨hsame, -⟩ | ⟨-, hanswered, hconf⟩
      · exact .inl (congrArg (fun st : State L => st.getValue k) hsame)
      · by_cases hk : k ∈ credentialKeys
        · exact .inr (.inl ⟨⟨.inl rfl, hanswered⟩, hk⟩)
        · exact .inl ((getValue_of_conf_eq hconf k).trans (getValue_setPassword hk _ _ st))
    | login =>
      rcases login_cases req m st with ⟨-, hconf, -⟩ | ⟨-, hconf, hanswered⟩
      · exact .inl (getValue_of_conf_eq hconf k)
      · by_cases hk : k ∈ credentialKeys
        · exact .inr (.inl ⟨⟨.inr rfl, hanswered⟩, hk⟩)
        · refine .inl ?_
          split at hconf
          · exact (getValue_of_conf_eq hconf k).trans (getValue_setPassword hk _ _ st)
          · exact getValue_of_conf_eq hconf k
    | putPrefs =>
      by_cases hk : k ∈ prefTable.map Prod.fst
      · exact .inr (.inr ⟨rfl, hk⟩)
      · exact .inl (getValue_putPrefs_of_not_mem hk req m st)
    | _ => cases hwrites

end Api

namespace Process

/-- One event, one key. -/
theorem getValue_next (p : Process L) (e : Happening) (k : String) :
    ((machine L).next p e).state.getValue k = p.state.getValue k ∨
      ∃ c, e = .main (.request c) ∧ (Api.SignsIn p.state c ∧ k ∈ credentialKeys ∨
        c.route = .putPrefs ∧ k ∈ prefTable.map Prod.fst) := by
  by_cases hrequest : ∃ c, e = .main (.request c)
  · obtain ⟨c, rfl⟩ := hrequest
    exact (Api.getValue_serve c p.state k).imp_right fun h => ⟨c, rfl, h⟩
  · have hframe : writes e .conf = false := by
      cases e with
      | main e =>
        cases e with
        | request c => exact absurd ⟨c, rfl⟩ hrequest
        | _ => rfl
      | _ => rfl
    exact .inl (Api.getValue_of_conf_eq (same_next hframe p) k)

/-- A key that changes over a run was set by a request that may set it. -/
theorem exists_setter {p : Process L} {es : List Happening} {k : String}
    (h : ((machine L).run p es).state.getValue k ≠ p.state.getValue k) :
    ∃ pre c post, es = pre ++ .main (.request c) :: post ∧
      (Api.SignsIn ((machine L).run p pre).state c ∧ k ∈ credentialKeys ∨
        c.route = .putPrefs ∧ k ∈ prefTable.map Prod.fst) := by
  induction es using List.reverseRecOn with
  | nil => exact absurd rfl h
  | append_singleton es e ih =>
    rw [run_append, run_cons, run_nil] at h
    rcases getValue_next ((machine L).run p es) e k with hsame | ⟨c, rfl, hset⟩
    · rw [hsame] at h
      obtain ⟨pre, c, post, rfl, hset⟩ := ih h
      exact ⟨pre, c, post ++ [e], by simp, hset⟩
    · exact ⟨es, c, [], rfl, hset⟩

theorem getValue_run {k : String} (hk : k ∉ settableKeys) (p : Process L) (es : List Happening) :
    ((machine L).run p es).state.getValue k = p.state.getValue k := by
  rw [settableKeys, List.mem_append, not_or] at hk
  by_contra hne
  obtain ⟨pre, c, post, -, hset⟩ := exists_setter hne
  rcases hset with ⟨-, hmem⟩ | ⟨-, hmem⟩
  · exact hk.1 hmem
  · exact hk.2 hmem

theorem sessionTtl_congr {st st' : State L}
    (h : st'.getValue "web/session_ttl" = st.getValue "web/session_ttl") :
    DiskMain.sessionTtl st' = DiskMain.sessionTtl st := by
  rw [DiskMain.sessionTtl, DiskMain.sessionTtl, h]

/-- The sessions of a process that was started with the configured TTL keep it. -/
theorem ttl_run {p : Process L} (h : p.state.sessions.ttl = DiskMain.sessionTtl p.state)
    (es : List Happening) : ((machine L).run p es).state.sessions.ttl = DiskMain.sessionTtl p.state := by
  induction es using List.reverseRecOn with
  | nil => exact h
  | append_singleton es e ih =>
    rw [run_append, run_cons, run_nil]
    by_cases hrestart : ∃ tls nowMs, e = .main (.restart tls nowMs)
    · obtain ⟨tls, nowMs, rfl⟩ := hrestart
      rw [sessions_next_restart]
      exact sessionTtl_congr (getValue_run (by decide) p es)
    · rw [ttl_next (fun tls nowMs he => hrestart ⟨tls, nowMs, he⟩), ih]

/-- **The network cannot reach the rest of the configuration.** In every run of the
process, a key that is neither one of the credential nor a preference keeps its value:
among them the folder that scripts are confined to, so that what a job may run is decided
by files outside the web interface, and the TTL of the sessions, which stays that of the
session table. The credential changes only when somebody signs in. -/
theorem configuration_protected (p : Process L) (es : List Happening) :
    (∀ k ∉ settableKeys, ((machine L).run p es).state.getValue k = p.state.getValue k) ∧
    (p.state.sessions.ttl = DiskMain.sessionTtl p.state →
      ((machine L).run p es).state.sessions.ttl =
        DiskMain.sessionTtl ((machine L).run p es).state) ∧
    ((∀ k ∈ credentialKeys, ((machine L).run p es).state.getValue k = p.state.getValue k) ∨
      ∃ pre c post, es = pre ++ .main (.request c) :: post ∧
        Credential ((machine L).run p pre).state c) := by
  refine ⟨fun k hk => getValue_run hk p es, ?_, ?_⟩
  · intro httl
    rw [ttl_run httl]
    exact (sessionTtl_congr (getValue_run (by decide) p es)).symm
  · rw [or_iff_not_imp_left]
    intro hchanged
    push Not at hchanged
    obtain ⟨k, hk, hne⟩ := hchanged
    obtain ⟨pre, c, post, rfl, hset⟩ := exists_setter hne
    rcases hset with ⟨hsigns, -⟩ | ⟨-, hpref⟩
    · exact ⟨pre, c, post, rfl, credential_of_signsIn hsigns⟩
    · exact absurd hpref (not_pref_of_credential hk)

end Process

end TiBackup
