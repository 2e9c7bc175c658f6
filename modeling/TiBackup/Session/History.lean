import TiBackup.Session.Expiry

/-!
# TiBackup.Session.History

**Which sessions are live, read off the history of the store.**

A token is live at a time when some `createSession` returned it, it was not dropped
since, and no two consecutive refreshes (the creation, the successful validations,
and now) are more than `ttl` seconds apart. The ideal table computes this one call at
a time: an entry is the creation and the last refresh, and the gaps before it were
checked when the refreshes happened.
-/

namespace TiBackup

open Lib Lib.Machine

namespace SessionStore

/-- The times at which a token was validated with success, read off calls and their
answers. -/
def refreshes (t : String) : List Call → List Answer → List Int
  | .validate token now :: calls, .validated true :: answers =>
    if token = t then now :: refreshes t calls answers else refreshes t calls answers
  | _ :: calls, _ :: answers => refreshes t calls answers
  | _, _ => []

/-- No two neighbours are more than `ttl` apart. -/
def GapsWithin (ttl : Int) (times : List Int) : Prop := times.IsChain fun a b => b - a ≤ ttl

theorem gapsWithin_cons_cons {ttl a b : Int} {l : List Int} :
    GapsWithin ttl (a :: b :: l) ↔ b - a ≤ ttl ∧ GapsWithin ttl (b :: l) :=
  List.isChain_cons_cons

/-- `t` is live at `now`, after the given calls on an empty store. -/
def Live (ttl : Int) (t : String) (calls : List Call) (now : Int) : Prop :=
  ∃ pre rawToken rawCsrf purgeNow created post,
    calls = pre ++ .createSession rawToken rawCsrf purgeNow created :: post ∧
    randomToken rawToken = t ∧
    (∀ c ∈ post, c.dropped ≠ some t) ∧
    GapsWithin ttl (created :: refreshes t post (machine.outputs
      (machine.run { ttl := ttl }
        (pre ++ [.createSession rawToken rawCsrf purgeNow created])) post) ++ [now])

/-! ### The ideal table as a summary of the history -/

/-- A call that neither creates nor drops a token leaves its entry, except that a
successful validation refreshes it. -/
theorem ideal_next_of_kept {ttl : Int} {t : String} {c : Call} (hcreated : c.created ≠ some t)
    (hdropped : c.dropped ≠ some t) {T : Table} {s : Session} (hs : T t = some s)
    (calls : List Call) (answers : List Answer) :
    ((ideal ttl).next T c t = some s ∧
      refreshes t (c :: calls) ((ideal ttl).out T c :: answers) = refreshes t calls answers) ∨
    ∃ now, now - s.lastSeen ≤ ttl ∧
      (ideal ttl).next T c t = some { s with lastSeen := now } ∧
      refreshes t (c :: calls) ((ideal ttl).out T c :: answers) =
        now :: refreshes t calls answers := by
  cases c with
  | createSession rawToken rawCsrf purgeNow now =>
    have ht : t ≠ randomToken rawToken := fun h => hcreated (by rw [h]; rfl)
    exact .inl ⟨by rw [ideal_next_createSession, if_neg ht, hs], rfl⟩
  | csrfFor token now => exact .inl ⟨hs, rfl⟩
  | drop token now =>
    have ht : t ≠ token := fun h => hdropped (by rw [h]; rfl)
    exact .inl ⟨by rw [ideal_next_drop, if_neg ht, hs], rfl⟩
  | validate token now =>
    rw [ideal_next_validate, ideal_out_validate]
    by_cases ht : t = token
    · subst ht
      rw [hs, alive_some]
      by_cases hlive : now - s.lastSeen ≤ ttl
      · exact .inr ⟨now, hlive, by simp [hlive], by simp [hlive, refreshes]⟩
      · exact .inl ⟨by simp [hlive], by simp [hlive, refreshes]⟩
    · refine .inl ⟨by simp [ht, hs], ?_⟩
      cases (alive ttl now (T token)).isSome <;> simp [refreshes, Ne.symm ht]

/-- From an entry on, as long as the token is neither created again nor dropped: the
entry is live exactly when all gaps between refreshes are within `ttl`. -/
theorem alive_run_iff {ttl now : Int} {t : String} {post : List Call}
    (hcreated : ∀ c ∈ post, c.created ≠ some t) (hdropped : ∀ c ∈ post, c.dropped ≠ some t)
    {T : Table} {s : Session} (hs : T t = some s) :
    (alive ttl now ((ideal ttl).run T post t)).isSome ↔
      GapsWithin ttl (s.lastSeen :: refreshes t post ((ideal ttl).outputs T post) ++ [now]) := by
  induction post generalizing T s with
  | nil =>
    -- Nothing was refreshed: the only gap is the one up to now.
    rw [run_nil, hs, alive_some]
    show _ ↔ GapsWithin ttl [s.lastSeen, now]
    have hlast : GapsWithin ttl [now] := List.IsChain.singleton now
    rw [gapsWithin_cons_cons]
    by_cases hlive : now - s.lastSeen ≤ ttl
    · simp only [hlive, if_true, Option.isSome_some, hlast, and_self]
    · simp only [hlive, if_false, Option.isSome_none, Bool.false_eq_true, false_and]
  | cons c post ih =>
    have ih := fun {T s} => @ih (fun c hc => hcreated c (List.mem_cons_of_mem _ hc))
      (fun c hc => hdropped c (List.mem_cons_of_mem _ hc)) T s
    rw [run_cons, outputs_cons]
    rcases ideal_next_of_kept (hcreated c List.mem_cons_self) (hdropped c List.mem_cons_self) hs
      post ((ideal ttl).outputs ((ideal ttl).next T c) post)
      with ⟨hnext, hrefr⟩ | ⟨u, hgap, hnext, hrefr⟩
    · rw [hrefr, ih hnext]
    · rw [hrefr, ih hnext]
      simp only [List.cons_append, gapsWithin_cons_cons, hgap, true_and]

theorem Call.created_eq_some {c : Call} {t : String} : c.created = some t ↔
    ∃ rawToken rawCsrf purgeNow now,
      c = .createSession rawToken rawCsrf purgeNow now ∧ randomToken rawToken = t := by
  cases c <;> simp [Call.created]

/-- Where an entry comes from: a call created it, or it was there and was not dropped. -/
theorem of_ideal_next {ttl : Int} {t : String} {T : Table} {c : Call} {s : Session}
    (hs : (ideal ttl).next T c t = some s) :
    c.created = some t ∨ c.created ≠ some t ∧ c.dropped ≠ some t ∧ ∃ s', T t = some s' := by
  cases c with
  | createSession rawToken rawCsrf purgeNow now =>
    rw [ideal_next_createSession] at hs
    split at hs
    · next ht => exact .inl (congrArg some ht.symm)
    · next ht => exact .inr ⟨fun h => ht (Option.some.inj h).symm, nofun, s, hs⟩
  | csrfFor token now => exact .inr ⟨nofun, nofun, s, hs⟩
  | drop token now =>
    rw [ideal_next_drop] at hs
    split at hs
    · cases hs
    · next ht => exact .inr ⟨nofun, fun h => ht (Option.some.inj h).symm, s, hs⟩
  | validate token now =>
    refine .inr ⟨nofun, nofun, ?_⟩
    rw [ideal_next_validate] at hs
    split at hs
    · obtain ⟨s', hs', -⟩ := Option.map_eq_some_iff.mp hs
      exact ⟨s', hs'⟩
    · exact ⟨s, hs⟩

/-- An entry of the table has a creation behind it, and no drop after that. -/
theorem exists_creation {ttl : Int} {t : String} {calls : List Call} {s : Session}
    (hs : (ideal ttl).run (fun _ => none) calls t = some s) :
    ∃ pre rawToken rawCsrf purgeNow created post,
      calls = pre ++ .createSession rawToken rawCsrf purgeNow created :: post ∧
      randomToken rawToken = t ∧ ∀ c ∈ post, c.dropped ≠ some t := by
  induction calls using List.reverseRecOn generalizing s with
  | nil => cases hs
  | append_singleton calls c ih =>
    rw [run_append, run_cons, run_nil] at hs
    rcases of_ideal_next hs with hcreated | ⟨-, hdropped, s', hs'⟩
    · obtain ⟨rawToken, rawCsrf, purgeNow, created, rfl, ht⟩ := Call.created_eq_some.mp hcreated
      exact ⟨calls, rawToken, rawCsrf, purgeNow, created, [], rfl, ht, nofun⟩
    · obtain ⟨pre, rawToken, rawCsrf, purgeNow, created, post, rfl, ht, hpost⟩ := ih hs'
      refine ⟨pre, rawToken, rawCsrf, purgeNow, created, post ++ [c], by simp, ht, ?_⟩
      simpa [or_imp, forall_and] using ⟨hpost, hdropped⟩

/-- With distinct tokens, nothing after a creation creates the same token again. -/
theorem not_created_again {pre post : List Call} {c : Call} {t : String}
    (hnodup : ((pre ++ c :: post).filterMap Call.created).Nodup) (hc : c.created = some t) :
    ∀ c' ∈ post, c'.created ≠ some t := by
  intro c' hc' heq
  rw [List.filterMap_append, List.filterMap_cons_some hc] at hnodup
  have htail := (List.nodup_append.mp hnodup).2.1
  exact (List.nodup_cons.mp htail).1 (List.mem_filterMap.mpr ⟨c', hc', heq⟩)

/-- What follows the creation of a token, in the table and in the store. -/
theorem alive_after_creation {ttl t₀ now : Int} {pre post : List Call} {rawToken rawCsrf : RandomBytes}
    {purgeNow created : Int}
    (horder : InOrder Call.start Call.stop t₀
      (pre ++ .createSession rawToken rawCsrf purgeNow created :: post))
    (hnodup : ((pre ++ .createSession rawToken rawCsrf purgeNow created :: post).filterMap
      Call.created).Nodup)
    (hdropped : ∀ c ∈ post, c.dropped ≠ some (randomToken rawToken)) :
    (alive ttl now ((ideal ttl).run (fun _ => none)
      (pre ++ .createSession rawToken rawCsrf purgeNow created :: post)
      (randomToken rawToken))).isSome ↔
    GapsWithin ttl (created :: refreshes (randomToken rawToken) post
      (machine.outputs (machine.run { ttl := ttl }
        (pre ++ [.createSession rawToken rawCsrf purgeNow created])) post) ++ [now]) := by
  have hcreated := not_created_again (t := randomToken rawToken) hnodup rfl
  rw [List.append_cons] at horder ⊢
  rw [inOrder_append] at horder
  have hmid := ((Agrees.empty ttl t₀).run horder.1).1
  rw [run_append, (hmid.run horder.2).2]
  refine alive_run_iff hcreated hdropped (s := ⟨randomToken rawCsrf, created⟩) ?_
  rw [run_append, run_cons, run_nil, ideal_next_createSession, if_pos rfl]

/-- **The table is the history**: a session is live in the table exactly when the
history of the calls says so. -/
theorem alive_ideal_iff_live {ttl t₀ now : Int} {calls : List Call}
    (horder : InOrder Call.start Call.stop t₀ calls)
    (hnodup : (calls.filterMap Call.created).Nodup) (t : String) :
    (alive ttl now ((ideal ttl).run (fun _ => none) calls t)).isSome ↔ Live ttl t calls now := by
  constructor
  · intro halive
    obtain ⟨s, hs⟩ := Option.isSome_iff_exists.mp halive
    obtain ⟨pre, rawToken, rawCsrf, purgeNow, created, post, rfl, rfl, hdropped⟩ :=
      exists_creation (Option.filter_eq_some_iff.mp hs).1
    exact ⟨pre, rawToken, rawCsrf, purgeNow, created, post, rfl, rfl, hdropped,
      (alive_after_creation horder hnodup hdropped).mp halive⟩
  · rintro ⟨pre, rawToken, rawCsrf, purgeNow, created, post, rfl, rfl, hdropped, hgaps⟩
    exact (alive_after_creation horder hnodup hdropped).mpr hgaps

/-! ### Answers that do not change -/

/-- A token the store refuses is refused from then on, unless it is created. -/
theorem refused_run {t₀ : Int} {st : SessionStore} {t : String} {calls : List Call}
    (hrefused : alive st.ttl t₀ st.sessions[t]? = none)
    (hcreated : ∀ c ∈ calls, c.created ≠ some t)
    (horder : InOrder Call.start Call.stop t₀ calls) :
    alive (machine.run st calls).ttl (lastReading Call.stop t₀ calls)
      (machine.run st calls).sessions[t]? = none := by
  refine invariant_run_clocked (M := machine)
    (I := fun clock st => alive st.ttl clock st.sessions[t]? = none) ?_ hrefused horder
  intro c hc clock st hI hstart hstop
  have hnow : alive st.ttl c.stop st.sessions[t]? = none :=
    alive_eq_none_mono (hstart.trans hstop) hI
  cases c with
  | createSession rawToken rawCsrf purgeNow now =>
    have ht : t ≠ randomToken rawToken := fun h => hcreated _ hc (by rw [h]; rfl)
    simp only [next, machine, Call.stop, sessions_createSession, ttl_createSession, if_neg ht]
    rw [alive_alive (t := purgeNow) (u := now) st.ttl hstop]
    exact hnow
  | validate token now =>
    simp only [next, machine, Call.stop, sessions_validate, ttl_validate]
    split
    · rw [show alive st.ttl now st.sessions[t]? = none from hnow]
      rfl
    · exact hnow
  | csrfFor token now => exact hnow
  | drop token now =>
    simp only [next, machine, Call.stop, sessions_drop, ttl_drop]
    split
    · rfl
    · exact hnow

/-- Two stores that treat one token alike. -/
def AliveAt (t : String) (clock : Int) (a b : SessionStore) : Prop :=
  a.ttl = b.ttl ∧ alive a.ttl clock a.sessions[t]? = alive b.ttl clock b.sessions[t]?

/-- Time goes by. -/
theorem AliveAt.mono {t : String} {clock clock' : Int} {a b : SessionStore}
    (h : AliveAt t clock a b) (hle : clock ≤ clock') : AliveAt t clock' a b := by
  obtain ⟨httl, halive⟩ := h
  refine ⟨httl, ?_⟩
  rw [httl] at halive ⊢
  exact alive_congr hle halive

/-- A call about another token leaves the treatment of `t` alone. -/
theorem AliveAt.skip {t : String} {clock : Int} {a b : SessionStore} (h : AliveAt t clock a b)
    {c : Call} (hc : c.token ≠ t) (hstart : clock ≤ c.start) (hstop : c.start ≤ c.stop) :
    AliveAt t c.stop (machine.next a c) b := by
  obtain ⟨httl, hnow⟩ := h.mono (hstart.trans hstop)
  cases c with
  | createSession rawToken rawCsrf purgeNow now =>
    have ht : t ≠ randomToken rawToken := fun h => hc h.symm
    refine ⟨httl, ?_⟩
    simp only [next, machine, Call.stop, sessions_createSession, ttl_createSession, if_neg ht]
    rw [alive_alive (t := purgeNow) (u := now) a.ttl hstop]
    exact hnow
  | validate token now =>
    have ht : ¬(t = token ∧ token ≠ "") := fun h => hc h.1.symm
    exact ⟨by simpa [next, machine] using httl,
      by simpa [next, machine, sessions_validate, ht] using hnow⟩
  | csrfFor token now => exact ⟨httl, hnow⟩
  | drop token now =>
    have ht : t ≠ token := fun h => hc h.symm
    exact ⟨httl, by simpa [next, machine, sessions_drop, ht] using hnow⟩

/-- A call about `t` is answered alike, and treats `t` alike. -/
theorem AliveAt.keep {t : String} {clock : Int} {a b : SessionStore} (h : AliveAt t clock a b)
    {c : Call} (hc : c.token = t) (hstart : clock ≤ c.start) (hstop : c.start ≤ c.stop) :
    AliveAt t c.stop (machine.next a c) (machine.next b c) ∧ machine.out a c = machine.out b c := by
  obtain ⟨httl, hnow⟩ := h.mono (hstart.trans hstop)
  cases c with
  | createSession rawToken rawCsrf purgeNow now =>
    have ht : t = randomToken rawToken := hc.symm
    exact ⟨⟨httl, by simp [next, machine, sessions_createSession, ht, httl]⟩, rfl⟩
  | validate token now =>
    have ht : t = token := hc.symm
    subst ht
    have hnow : alive a.ttl now a.sessions[t]? = alive b.ttl now b.sessions[t]? := hnow
    refine ⟨⟨by simpa [next, machine] using httl, ?_⟩, ?_⟩
    · simp only [next, machine, Call.stop, sessions_validate, ttl_validate]
      rw [hnow, httl]
      by_cases htoken : t = ""
      · subst htoken
        simpa [httl] using hnow
      · simp [htoken]
    · simp only [out, machine]
      rw [validate_snd, validate_snd, hnow]
  | csrfFor token now => exact ⟨⟨httl, hnow⟩, rfl⟩
  | drop token now =>
    have ht : t = token := hc.symm
    exact ⟨⟨httl, by simp [next, machine, sessions_drop, ht]⟩, rfl⟩

/-! ### The whole statement -/

/-- **The session store is the ideal sliding-expiry table.** After any run of calls,
`validate` accepts a token exactly when the history says it is live; every answer on
the way is the one of the table that never erases or purges, and every token returned is
that of the session that was entered; a token that was created
and is refused stays refused; and the answers about one token are those of the run
without all calls about other tokens. -/
theorem refines_sliding_expiry {ttl t₀ : Int} {calls : List Call}
    (horder : InOrder Call.start Call.stop t₀ calls)
    (hdistinct : (calls.filterMap Call.created).Nodup) :
    (∀ t now, lastReading Call.stop t₀ calls ≤ now →
      (((machine.run { ttl := ttl } calls).validate now t).2 = true ↔ Live ttl t calls now)) ∧
    machine.outputs { ttl := ttl } calls = (ideal ttl).outputs (fun _ => none) calls ∧
    (∀ pre later t u now, calls = pre ++ later → t ∈ pre.filterMap Call.created →
      InOrder Call.start Call.stop u later → lastReading Call.stop u later ≤ now →
      ((machine.run { ttl := ttl } pre).validate u t).2 = false →
      ((machine.run { ttl := ttl } calls).validate now t).2 = false) ∧
    ∀ t, machine.answers (fun c => c.token = t) { ttl := ttl } calls =
      machine.outputs { ttl := ttl } (calls.filter fun c => c.token = t) := by
  have hrun := (Agrees.empty ttl t₀).run horder
  refine ⟨?_, hrun.2, ?_, ?_⟩
  · intro t now hnow
    rw [hrun.1.validate_snd hnow]
    exact alive_ideal_iff_live horder hdistinct t
  · rintro pre later t u now rfl hmem hlater hnow hrefused
    obtain ⟨c, hc, hct⟩ := List.mem_filterMap.mp hmem
    obtain ⟨pre₁, pre₂, rfl⟩ := List.append_of_mem hc
    have htoken : t ≠ "" := by
      obtain ⟨rawToken, _, _, _, -, rfl⟩ := Call.created_eq_some.mp hct
      exact randomToken_ne_empty rawToken
    have hagain : ∀ c' ∈ later, c'.created ≠ some t := fun c' hc' =>
      not_created_again (by simpa using hdistinct) hct c' (List.mem_append_right pre₂ hc')
    rw [validate_snd] at hrefused ⊢
    have hout : alive (machine.run { ttl := ttl } (pre₁ ++ c :: pre₂)).ttl u
        (machine.run { ttl := ttl } (pre₁ ++ c :: pre₂)).sessions[t]? = none := by
      simpa [htoken] using hrefused
    have hend := refused_run hout hagain hlater
    rw [← run_append] at hend
    have hlast : alive (machine.run { ttl := ttl } (pre₁ ++ c :: pre₂ ++ later)).ttl now
        (machine.run { ttl := ttl } (pre₁ ++ c :: pre₂ ++ later)).sessions[t]? = none :=
      alive_eq_none_mono hnow hend
    rw [hlast, Option.isSome_none, Bool.and_false]
  · intro t
    refine answers_filter_clocked (R := AliveAt t) ?_ ?_ ⟨rfl, rfl⟩ horder
    · intro clock a b c hp hR hstart hstop
      exact hR.skip (of_decide_eq_false hp) hstart hstop
    · intro clock a b c hp hR hstart hstop
      exact hR.keep (of_decide_eq_true hp) hstart hstop

/-- The bytes of the one session of `idleRun`. -/
def idleBytes : RandomBytes := ⟨List.replicate 32 1, rfl⟩

/-- A session that is created, refreshed just in time, and then left idle. -/
def idleRun : List Call :=
  [.createSession idleBytes idleBytes 0 0, .validate (randomToken idleBytes) 3600,
    .drop "other" 3700]

theorem refines_sliding_expiry_idleRun :
    InOrder Call.start Call.stop 0 idleRun ∧ (idleRun.filterMap Call.created).Nodup ∧
    ∀ t now, 3700 ≤ now →
      (((machine.run { ttl := 3600 } idleRun).validate now t).2 = true ↔
        Live 3600 t idleRun now) := by
  have horder : InOrder Call.start Call.stop 0 idleRun := by simp [idleRun, Call.start, Call.stop]
  have hdistinct : (idleRun.filterMap Call.created).Nodup := by
    simp [idleRun, List.filterMap, Call.created]
  exact ⟨horder, hdistinct, (refines_sliding_expiry horder hdistinct).1⟩

end SessionStore

end TiBackup
