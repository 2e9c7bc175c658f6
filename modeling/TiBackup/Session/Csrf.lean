import TiBackup.Session.History

/-!
# TiBackup.Session.Csrf

**For which tokens `csrfFor` has a value.** `validate` checks how long ago a session was used,
`csrfFor` only looks whether it is in the table, where an expired one stays until a call that
removes it. What is in the table is read off the history: a session that was used at some time
is there from then on until it is dropped, or validated or purged after it has expired
(`usedAt_run_iff`). So `csrfFor` and `validate` agree exactly when no expired session was left
(`csrfFor_exact_iff`).
-/

namespace TiBackup

open Lib Lib.Machine

namespace SessionStore

/-! ### What is in the table -/

/-- The call leaves a session alone that was used at time `u`. -/
def Leaves (ttl u : Int) (t : String) : Call → Prop
  | .createSession rawToken _ purgeNow _ => randomToken rawToken ≠ t ∧ purgeNow - u ≤ ttl
  | .validate token _ | .drop token _ => token ≠ t
  | .csrfFor _ _ => True

/-- The token was last used at time `u`, and everything after that leaves its session alone.
A use is its creation, or a validation soon enough after the use before. Only the calls and
their times are looked at, not what was answered. -/
inductive Kept (ttl : Int) (t : String) : List Call → Int → Prop
  | created {calls : List Call} {rawToken : RandomBytes} (rawCsrf : RandomBytes)
      (purgeNow now : Int) : randomToken rawToken = t →
      Kept ttl t (calls ++ [.createSession rawToken rawCsrf purgeNow now]) now
  | validated {calls : List Call} {u now : Int} : Kept ttl t calls u → now - u ≤ ttl →
      Kept ttl t (calls ++ [.validate t now]) now
  | left {calls : List Call} {c : Call} {u : Int} : Kept ttl t calls u → Leaves ttl u t c →
      Kept ttl t (calls ++ [c]) u

/-- The token has a session that was used at time `u`. -/
def UsedAt (st : SessionStore) (t : String) (u : Int) : Prop :=
  ∃ s, st.sessions[t]? = some s ∧ s.lastSeen = u

theorem alive_usedAt {ttl now u : Int} {entry : Option Session} :
    (∃ s, alive ttl now entry = some s ∧ s.lastSeen = u) ↔
      now - u ≤ ttl ∧ ∃ s, entry = some s ∧ s.lastSeen = u := by
  cases entry with
  | none => simp
  | some s =>
    rw [alive_some]
    constructor
    · rintro ⟨s', hs', rfl⟩
      split at hs'
      · next hlive =>
        obtain rfl := Option.some.inj hs'
        exact ⟨hlive, s, rfl, rfl⟩
      · cases hs'
    · rintro ⟨hlive, s', hs', rfl⟩
      obtain rfl := Option.some.inj hs'
      exact ⟨s, if_pos hlive, rfl⟩

/-! ### One call -/

theorem usedAt_createSession (st : SessionStore) (rawToken rawCsrf : RandomBytes)
    (purgeNow now : Int) {t : String} {u : Int} :
    UsedAt (machine.next st (.createSession rawToken rawCsrf purgeNow now)) t u ↔
      if randomToken rawToken = t then now = u else purgeNow - u ≤ st.ttl ∧ UsedAt st t u := by
  simp only [UsedAt, next, machine, sessions_createSession]
  by_cases htoken : t = randomToken rawToken
  · simp [htoken]
  · simp only [if_neg htoken, if_neg (Ne.symm htoken), alive_usedAt]

theorem usedAt_validate (st : SessionStore) {t : String} (ht : t ≠ "") (token : String) (now : Int)
    {u : Int} : UsedAt (machine.next st (.validate token now)) t u ↔
      if token = t then now = u ∧ ∃ u', now - u' ≤ st.ttl ∧ UsedAt st t u' else UsedAt st t u := by
  simp only [UsedAt, next, machine, sessions_validate]
  by_cases htoken : t = token
  · subst htoken
    simp only [ht, ne_eq, not_false_eq_true, and_self, if_true, ← alive_usedAt]
    cases alive st.ttl now st.sessions[t]? with
    | none => simp
    | some s => simp
  · simp [htoken, Ne.symm htoken]

theorem usedAt_drop (st : SessionStore) (token : String) (now : Int) {t : String} {u : Int} :
    UsedAt (machine.next st (.drop token now)) t u ↔ token ≠ t ∧ UsedAt st t u := by
  simp only [UsedAt, next, machine, sessions_drop]
  by_cases htoken : t = token
  · simp [htoken]
  · simp [htoken, Ne.symm htoken]

/-! ### Runs -/

theorem ttl_run (st : SessionStore) (calls : List Call) : (machine.run st calls).ttl = st.ttl := by
  induction calls generalizing st with
  | nil => rfl
  | cons c calls ih =>
    rw [run_cons, ih]
    cases c with
    | createSession rawToken rawCsrf purgeNow now => rfl
    | validate token now => exact ttl_validate st now token
    | csrfFor token now => rfl
    | drop token now => rfl

/-- What the history keeps is in the table. -/
theorem Kept.usedAt {ttl : Int} {t : String} (ht : t ≠ "") {calls : List Call} {u : Int}
    (h : Kept ttl t calls u) : UsedAt (machine.run { ttl := ttl } calls) t u := by
  induction h with
  | created rawCsrf purgeNow now htoken =>
    rw [run_append, run_cons, run_nil, usedAt_createSession, if_pos htoken]
  | @validated calls u now _ hlive ih =>
    rw [run_append, run_cons, run_nil, usedAt_validate _ ht, if_pos rfl]
    exact ⟨rfl, u, by rwa [ttl_run], ih⟩
  | @left calls c u _ hleaves ih =>
    rw [run_append, run_cons, run_nil]
    cases c with
    | createSession rawToken rawCsrf purgeNow now =>
      rw [usedAt_createSession, if_neg hleaves.1]
      exact ⟨by rw [ttl_run]; exact hleaves.2, ih⟩
    | validate token now =>
      rw [usedAt_validate _ ht, if_neg hleaves]
      exact ih
    | csrfFor token now => exact ih
    | drop token now => exact (usedAt_drop _ token now).mpr ⟨hleaves, ih⟩

/-- What is in the table is kept by the history, call by call. -/
theorem kept_of_usedAt {ttl : Int} {t : String} (ht : t ≠ "") {calls : List Call} {u : Int}
    (h : UsedAt (machine.run { ttl := ttl } calls) t u) : Kept ttl t calls u := by
  induction calls using List.reverseRecOn generalizing u with
  | nil =>
    obtain ⟨s, hs, -⟩ := h
    cases hs
  | append_singleton calls c ih =>
    rw [run_append, run_cons, run_nil] at h
    cases c with
    | createSession rawToken rawCsrf purgeNow now =>
      rw [usedAt_createSession, ttl_run] at h
      split at h
      · next htoken => exact h ▸ .created rawCsrf purgeNow now htoken
      · next htoken => exact .left (ih h.2) ⟨htoken, h.1⟩
    | validate token now =>
      rw [usedAt_validate _ ht, ttl_run] at h
      split at h
      · next htoken =>
        obtain ⟨rfl, u', hlive, hused⟩ := h
        rw [htoken]
        exact .validated (ih hused) hlive
      · next htoken => exact .left (ih h) htoken
    | csrfFor token now => exact .left (ih h) trivial
    | drop token now =>
      obtain ⟨htoken, hused⟩ := (usedAt_drop _ token now).mp h
      exact .left (ih hused) htoken

/-- **The table is the history**, expired sessions included. -/
theorem usedAt_run_iff {ttl : Int} {t : String} (ht : t ≠ "") (calls : List Call) (u : Int) :
    UsedAt (machine.run { ttl := ttl } calls) t u ↔ Kept ttl t calls u :=
  ⟨kept_of_usedAt ht, Kept.usedAt ht⟩

/-- The empty token is never created, and never accepted. -/
theorem not_kept_empty {ttl u : Int} {calls : List Call} : ¬ Kept ttl "" calls u := by
  intro h
  induction h with
  | created rawCsrf purgeNow now htoken => exact randomToken_ne_empty _ htoken
  | validated _ _ ih => exact ih
  | left _ _ ih => exact ih

/-! ### Whose value it is -/

/-- The calls created the token, once, with this CSRF token. -/
def CreatedWith (calls : List Call) (t csrf : String) : Prop :=
  (∃ c ∈ calls, c.created = some t) ∧
    ∀ rawToken rawCsrf purgeNow now, .createSession rawToken rawCsrf purgeNow now ∈ calls →
      randomToken rawToken = t → randomToken rawCsrf = csrf

/-- No call but the creation of the token gives it a CSRF token. -/
theorem csrf_next {st : SessionStore} {t : String} {c : Call} {s : Session}
    (hs : (machine.next st c).sessions[t]? = some s) :
    (∃ rawToken rawCsrf purgeNow now, c = .createSession rawToken rawCsrf purgeNow now ∧
      randomToken rawToken = t ∧ s.csrf = randomToken rawCsrf) ∨
    ∃ s', st.sessions[t]? = some s' ∧ s'.csrf = s.csrf := by
  cases c with
  | createSession rawToken rawCsrf purgeNow now =>
    simp only [next, machine, sessions_createSession] at hs
    split at hs
    · next ht =>
      obtain rfl := Option.some.inj hs
      exact .inl ⟨rawToken, rawCsrf, purgeNow, now, rfl, ht.symm, rfl⟩
    · exact .inr ⟨s, (Option.filter_eq_some_iff.mp hs).1, rfl⟩
  | validate token now =>
    simp only [next, machine, sessions_validate] at hs
    split at hs
    · obtain ⟨s', hs', rfl⟩ := Option.map_eq_some_iff.mp hs
      exact .inr ⟨s', (Option.filter_eq_some_iff.mp hs').1, rfl⟩
    · exact .inr ⟨s, hs, rfl⟩
  | csrfFor token now => exact .inr ⟨s, hs, rfl⟩
  | drop token now =>
    simp only [next, machine, sessions_drop] at hs
    split at hs
    · cases hs
    · exact .inr ⟨s, hs, rfl⟩

/-- A session in the table has the CSRF token it was created with. -/
theorem exists_created {ttl : Int} {t : String} {calls : List Call} {s : Session}
    (hs : (machine.run { ttl := ttl } calls).sessions[t]? = some s) :
    ∃ rawToken rawCsrf purgeNow now, .createSession rawToken rawCsrf purgeNow now ∈ calls ∧
      randomToken rawToken = t ∧ s.csrf = randomToken rawCsrf := by
  induction calls using List.reverseRecOn generalizing s with
  | nil => cases hs
  | append_singleton calls c ih =>
    rw [run_append, run_cons, run_nil] at hs
    rcases csrf_next hs with ⟨rawToken, rawCsrf, purgeNow, now, rfl, ht, hcsrf⟩ | ⟨s', hs', heq⟩
    · exact ⟨rawToken, rawCsrf, purgeNow, now, by simp, ht, hcsrf⟩
    · obtain ⟨rawToken, rawCsrf, purgeNow, now, hmem, ht, hcsrf⟩ := ih hs'
      exact ⟨rawToken, rawCsrf, purgeNow, now, List.mem_append_left _ hmem, ht, heq ▸ hcsrf⟩

theorem createdWith_of_mem {calls : List Call} (hdistinct : (calls.filterMap Call.created).Nodup)
    {rawToken rawCsrf : RandomBytes} {purgeNow now : Int}
    (hmem : .createSession rawToken rawCsrf purgeNow now ∈ calls) :
    CreatedWith calls (randomToken rawToken) (randomToken rawCsrf) := by
  refine ⟨⟨_, hmem, rfl⟩, ?_⟩
  intro rawToken' rawCsrf' purgeNow' now' hmem' ht
  obtain ⟨pre, post, rfl⟩ := List.append_of_mem hmem
  rcases List.mem_append.mp hmem' with hpre | hpost
  · obtain ⟨pre₁, pre₂, rfl⟩ := List.append_of_mem hpre
    rw [List.append_assoc, List.cons_append] at hdistinct
    have hlater := not_created_again hdistinct rfl (.createSession rawToken rawCsrf purgeNow now)
      (by simp)
    exact absurd (congrArg some ht.symm) hlater
  · rcases List.mem_cons.mp hpost with heq | hpost
    · injection heq with _ hcsrf
      rw [hcsrf]
    · exact absurd (congrArg some ht) (not_created_again hdistinct rfl _ hpost)

theorem csrfFor_of_some {st : SessionStore} {t : String} {s : Session}
    (h : st.sessions[t]? = some s) : st.csrfFor t = s.csrf := by
  rw [csrfFor, h]

theorem csrfFor_of_none {st : SessionStore} {t : String} (h : st.sessions[t]? = none) :
    st.csrfFor t = "" := by
  rw [csrfFor, h]

/-! ### The whole statement -/

/-- For this token and time `csrfFor` has a value exactly when `validate` accepts the token,
and it is the one the token was created with. -/
structure CsrfExact (ttl : Int) (calls : List Call) (t : String) (now : Int) : Prop where
  agrees : (machine.run { ttl := ttl } calls).csrfFor t ≠ "" ↔
    ((machine.run { ttl := ttl } calls).validate now t).2 = true
  created : (machine.run { ttl := ttl } calls).csrfFor t ≠ "" →
    CreatedWith calls t ((machine.run { ttl := ttl } calls).csrfFor t)

/-- **`csrfFor` is right** exactly when the token has no session that has expired and that
nothing has removed. -/
theorem csrfFor_exact_iff {ttl : Int} {calls : List Call}
    (hdistinct : (calls.filterMap Call.created).Nodup) (t : String) (now : Int) :
    CsrfExact ttl calls t now ↔ ∀ u, Kept ttl t calls u → now - u ≤ ttl := by
  cases hentry : (machine.run { ttl := ttl } calls).sessions[t]? with
  | none =>
    have hnone := csrfFor_of_none hentry
    have hinvalid : ((machine.run { ttl := ttl } calls).validate now t).2 ≠ true := by
      rw [validate_snd, hentry]
      simp
    refine iff_of_true ⟨iff_of_false (not_not.mpr hnone) hinvalid, fun h => absurd hnone h⟩ ?_
    intro u hkept
    by_cases ht : t = ""
    · exact absurd hkept (ht ▸ not_kept_empty)
    · obtain ⟨s, hs, -⟩ := (usedAt_run_iff ht calls u).mpr hkept
      rw [hentry] at hs
      cases hs
  | some s =>
    obtain ⟨rawToken, rawCsrf, purgeNow, created, hmem, rfl, hcsrf⟩ := exists_created hentry
    have ht := randomToken_ne_empty rawToken
    have hvalue : (machine.run { ttl := ttl } calls).csrfFor (randomToken rawToken) =
        randomToken rawCsrf := (csrfFor_of_some hentry).trans hcsrf
    have hvalid : ((machine.run { ttl := ttl } calls).validate now (randomToken rawToken)).2 = true ↔
        now - s.lastSeen ≤ ttl := by
      rw [validate_snd, hentry, alive_some, ttl_run]
      by_cases hlive : now - s.lastSeen ≤ ttl
      · simp [hlive, ht]
      · simp [hlive]
    -- The session in the table is the one that is kept.
    have hkept : ∀ u, Kept ttl (randomToken rawToken) calls u ↔ s.lastSeen = u := by
      intro u
      rw [← usedAt_run_iff ht, UsedAt, hentry]
      exact ⟨fun ⟨s', hs', hu⟩ => Option.some.inj hs' ▸ hu, fun hu => ⟨s, rfl, hu⟩⟩
    constructor
    · intro h u hu
      rw [← (hkept u).mp hu]
      exact hvalid.mp (h.agrees.mp (hvalue ▸ randomToken_ne_empty rawCsrf))
    · intro h
      have hlive := hvalid.mpr (h _ ((hkept _).mpr rfl))
      refine ⟨iff_of_true (hvalue ▸ randomToken_ne_empty rawCsrf) hlive, fun _ => ?_⟩
      rw [hvalue]
      exact createdWith_of_mem hdistinct hmem

/-- The session of `idleRun` is right up to an hour after its last use. -/
theorem csrfFor_exact_idleRun : (idleRun.filterMap Call.created).Nodup ∧
    CsrfExact 3600 idleRun (randomToken idleBytes) 7200 := by
  have hdistinct : (idleRun.filterMap Call.created).Nodup := by
    simp [idleRun, List.filterMap, Call.created]
  refine ⟨hdistinct, (csrfFor_exact_iff hdistinct _ _).mpr ?_⟩
  intro u hkept
  have ht := randomToken_ne_empty idleBytes
  have hused := (usedAt_run_iff ht idleRun u).mpr hkept
  -- The validation is its last use.
  simp only [idleRun, run_cons, run_nil, usedAt_drop, usedAt_validate _ ht, if_true] at hused
  rw [← hused.2.1]
  decide

/-- **A session that has expired** still has its CSRF token. -/
theorem csrfFor_expired : ¬ ∀ (ttl t₀ now : Int) (calls : List Call) (t : String),
    InOrder Call.start Call.stop t₀ calls → (calls.filterMap Call.created).Nodup →
      lastReading Call.stop t₀ calls ≤ now → CsrfExact ttl calls t now := by
  intro hall
  have hexact := hall 3600 0 4000 [.createSession idleBytes idleBytes 0 0] (randomToken idleBytes)
    (by simp [Call.start, Call.stop]) (by simp [List.filterMap, Call.created])
    (by simp [lastReading, Call.stop])
  have hentry : (machine.run { ttl := 3600 } [.createSession idleBytes idleBytes 0 0]).sessions[
      randomToken idleBytes]? = some { csrf := randomToken idleBytes, lastSeen := 0 } := by
    rw [run_cons, run_nil, next, machine, sessions_createSession, if_pos rfl]
  have hvalid := hexact.agrees.mp (csrfFor_of_some hentry ▸ randomToken_ne_empty idleBytes)
  rw [validate_snd, hentry, ttl_run, alive_some] at hvalid
  simp at hvalid

end SessionStore

end TiBackup
