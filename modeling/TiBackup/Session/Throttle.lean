import TiBackup.Lib.Machine
import TiBackup.Model.SessionStore
import Mathlib.Data.Int.Order.Basic

/-!
# TiBackup.Session.Throttle

**The login gate locks a client after every fifth failure in a row, for 300 seconds.**

What the gate should do is said over a client's *history*: the password verifications
it was granted, newest first. `failsSince` counts failures since the last success or
lock event, a lock event is a failure that brings the count to five, and `lastLock`
is the time of the latest lock event that no success followed.

The store keeps one `LoginGate` per client, erased and re-created on the way.
`Gated` ties it to the history: the count is the same, and `lockedUntil` is 300 after
the last lock event, or 0 once that is over.

`Throttled` collects the rules that follow. That POST /api/auth/login goes through this gate
is in `Auth.Login`.
-/

namespace TiBackup

open Lib Lib.Machine

namespace SessionStore

/-! ### The gate of one client -/

/-- The gate of a client; one that has no entry was never counted. -/
def gate (st : SessionStore) (clientId : String) : LoginGate := st.logins[clientId]?.getD {}

/-- A client may try unless its lock reaches past `now`. -/
theorem loginAllowed_snd (st : SessionStore) {now : Int} (hnow : 0 ≤ now) (clientId : String) :
    (st.loginAllowed now clientId).2 = decide ((st.gate clientId).lockedUntil ≤ now) := by
  unfold loginAllowed gate
  cases hg : st.logins[clientId]? with
  | none => simp [hnow]
  | some g =>
    by_cases hlocked : g.lockedUntil > now
    · simp [hlocked]
    · have hover : g.lockedUntil ≤ now := by omega
      by_cases hzero : g.lockedUntil ≠ 0
      · simp [hlocked, hzero, hover]
      · simp [hlocked, hzero, hover]

/-- Asking resets a lock that is over and does nothing else. -/
theorem gate_loginAllowed (st : SessionStore) (now : Int) (clientId c : String) :
    (st.loginAllowed now clientId).1.gate c =
      if c = clientId ∧ (st.gate clientId).lockedUntil ≤ now ∧ (st.gate clientId).lockedUntil ≠ 0
      then {} else st.gate c := by
  unfold loginAllowed gate
  cases hg : st.logins[clientId]? with
  | none => simp
  | some g =>
    by_cases hlocked : g.lockedUntil > now
    · have hover : ¬g.lockedUntil ≤ now := by omega
      simp [hlocked, hover]
    · have hover : g.lockedUntil ≤ now := by omega
      by_cases hzero : g.lockedUntil ≠ 0
      · by_cases hc : c = clientId
        · simp [hlocked, hzero, hover, hc]
        · simp [hlocked, hzero, hover, hc, StringMap.get_erase]
      · simp [hlocked, hzero]

/-- A client that is refused is not touched. -/
theorem loginAllowed_refused {st : SessionStore} {now : Int} {clientId : String}
    (h : (st.loginAllowed now clientId).2 = false) : (st.loginAllowed now clientId).1 = st := by
  unfold loginAllowed at h ⊢
  split
  · rfl
  · next g hg =>
    rw [hg] at h
    by_cases hlocked : g.lockedUntil > now
    · simp [hlocked]
    · by_cases hzero : g.lockedUntil ≠ 0
      · simp [hlocked, hzero] at h
      · simp [hlocked, hzero] at h

/-- A failure: nothing while locked, else count it, and lock at the fifth. -/
theorem gate_loginFailed (st : SessionStore) (now : Int) (clientId c : String) :
    (st.loginFailed now clientId).gate c =
      if c = clientId then
        if (st.gate clientId).lockedUntil > now then st.gate clientId
        else if (st.gate clientId).fails + 1 ≥ kMaxFails then
          { fails := 0, lockedUntil := now + kLockSeconds }
        else { st.gate clientId with fails := (st.gate clientId).fails + 1 }
      else st.gate c := by
  unfold loginFailed gate
  simp only
  by_cases hc : c = clientId
  · subst hc
    rw [if_pos rfl]
    split <;> rw [StringMap.get_insert_self] <;> rfl
  · rw [if_neg hc]
    split <;> rw [StringMap.get_insert_of_ne _ hc]

theorem gate_loginSucceeded (st : SessionStore) (clientId c : String) :
    (st.loginSucceeded clientId).gate c = if c = clientId then {} else st.gate c := by
  unfold loginSucceeded gate
  rw [StringMap.get_erase]
  split <;> rfl

/-! ### Login requests -/

/-- What the gate sees of a login request: who asks, the clock when it asks and when
the verification is over, and how that ended (`none` when there is no password to
verify against). -/
structure LoginAttempt where
  clientId : String
  now : Int
  later : Int
  verified : Option Bool

/-- One login request: ask, and if allowed, report how the verification ended. -/
def attempt (st : SessionStore) (a : LoginAttempt) : SessionStore × Bool :=
  let r := st.loginAllowed a.now a.clientId
  if !r.2 then (r.1, false)
  else
    match a.verified with
    | none => (r.1, true)
    | some false => (r.1.loginFailed a.later a.clientId, true)
    | some true => (r.1.loginSucceeded a.clientId, true)

/-- The gate as a machine: the output is whether the request was allowed. -/
def gates : Machine SessionStore LoginAttempt Bool where
  step := attempt

/-! ### Histories -/

/-- A password verification: when it was over, and how. -/
structure Verification where
  time : Int
  success : Bool

/-- The verification one request contributes to the history of `c`. -/
def LoginAttempt.verification (c : String) (a : LoginAttempt) (allowed : Bool) :
    List Verification :=
  if a.clientId = c ∧ allowed = true then
    match a.verified with
    | none => []
    | some success => [⟨a.later, success⟩]
  else []

/-- The verifications of `c` in a run, oldest first. -/
def verifications (c : String) : List LoginAttempt → List Bool → List Verification
  | a :: as, allowed :: answers => a.verification c allowed ++ verifications c as answers
  | _, _ => []

/-- Failures since the last success or lock event, of a history given newest first. -/
def failsSince : List Verification → Nat
  | [] => 0
  | ⟨_, true⟩ :: _ => 0
  | ⟨_, false⟩ :: h => if failsSince h + 1 = kMaxFails then 0 else failsSince h + 1

/-- The time of the latest lock event, unless a success followed it. -/
def lastLock : List Verification → Option Int
  | [] => none
  | ⟨_, true⟩ :: _ => none
  | ⟨t, false⟩ :: h => if failsSince h + 1 = kMaxFails then some t else lastLock h

/-- The end of the last lock; 0 when there is none. -/
def lockEnd (h : List Verification) : Int :=
  match lastLock h with
  | some t => t + kLockSeconds
  | none => 0

theorem failsSince_lt (h : List Verification) : failsSince h < kMaxFails := by
  induction h with
  | nil => decide
  | cons v h ih =>
    obtain ⟨t, success⟩ := v
    cases success with
    | true => exact Nat.zero_lt_succ 4
    | false => unfold failsSince; split <;> omega

theorem lockEnd_failed (t : Int) (h : List Verification) :
    lockEnd (⟨t, false⟩ :: h) =
      if failsSince h + 1 = kMaxFails then t + kLockSeconds else lockEnd h := by
  unfold lockEnd
  rw [lastLock]
  by_cases hfifth : failsSince h + 1 = kMaxFails
  · rw [if_pos hfifth, if_pos hfifth]
  · rw [if_neg hfifth, if_neg hfifth]

/-- A history the gate lets happen: in the order of time, and nothing while locked. -/
def Paced : List Verification → Prop
  | [] => True
  | v :: h => (∀ w ∈ h, w.time ≤ v.time) ∧ (∀ t, lastLock h = some t → t + kLockSeconds ≤ v.time) ∧
      Paced h

/-! ### The gate keeps the history -/

/-- The gate of `c` in the store, when the last clock reading was `clock` and the
history of `c` is `h`. -/
structure Gated (c : String) (clock : Int) (st : SessionStore) (h : List Verification) : Prop where
  clock_nonneg : 0 ≤ clock
  fails_eq : (st.gate c).fails = failsSince h
  locked : (st.gate c).lockedUntil = lockEnd h ∨
    (st.gate c).lockedUntil = 0 ∧ lockEnd h ≤ clock
  reset : (st.gate c).lockedUntil ≠ 0 → (st.gate c).fails = 0
  times : ∀ v ∈ h, v.time ≤ clock
  paced : Paced h

/-- A client is refused exactly while its last lock is not over. -/
theorem Gated.loginAllowed {c : String} {clock now : Int} {st : SessionStore}
    {h : List Verification} (hG : Gated c clock st h) (hnow : clock ≤ now) :
    (st.loginAllowed now c).2 = decide (lockEnd h ≤ now) := by
  have hpos := hG.clock_nonneg.trans hnow
  rw [loginAllowed_snd st hpos]
  rcases hG.locked with heq | ⟨hzero, hover⟩
  · rw [heq]
  · rw [hzero, decide_eq_true hpos, decide_eq_true (hover.trans hnow)]

/-- After it was let in, a client has no lock. -/
theorem Gated.allowed {c : String} {clock now : Int} {st : SessionStore} {h : List Verification}
    (hG : Gated c clock st h) (hnow : clock ≤ now) (hallowed : lockEnd h ≤ now) :
    Gated c now (st.loginAllowed now c).1 h ∧
      ((st.loginAllowed now c).1.gate c).lockedUntil = 0 := by
  have hpos := hG.clock_nonneg.trans hnow
  have htimes : ∀ v ∈ h, v.time ≤ now := fun v hv => (hG.times v hv).trans hnow
  have hle : (st.gate c).lockedUntil ≤ now := by
    rcases hG.locked with heq | ⟨hzero, -⟩
    · rw [heq]; exact hallowed
    · rw [hzero]; exact hpos
  -- The gate is erased only if it was locked once.
  by_cases hzero : (st.gate c).lockedUntil = 0
  · have hgate : (st.loginAllowed now c).1.gate c = st.gate c := by
      rw [gate_loginAllowed st now, if_neg fun hc => hc.2.2 hzero]
    refine ⟨⟨hpos, ?_, ?_, ?_, htimes, hG.paced⟩, ?_⟩
    · rw [hgate]; exact hG.fails_eq
    · rw [hgate]; exact .inr ⟨hzero, hallowed⟩
    · rw [hgate]; exact hG.reset
    · rw [hgate]; exact hzero
  · have hgate : (st.loginAllowed now c).1.gate c = {} := by
      rw [gate_loginAllowed st now, if_pos ⟨rfl, hle, hzero⟩]
    refine ⟨⟨hpos, ?_, ?_, ?_, htimes, hG.paced⟩, ?_⟩
    · rw [hgate, ← hG.fails_eq, hG.reset hzero]
    · rw [hgate]; exact .inr ⟨rfl, hallowed⟩
    · rw [hgate]; exact fun _ => rfl
    · rw [hgate]

theorem Gated.mono {c : String} {clock clock' : Int} {st : SessionStore} {h : List Verification}
    (hG : Gated c clock st h) (hle : clock ≤ clock') : Gated c clock' st h :=
  { hG with
    clock_nonneg := hG.clock_nonneg.trans hle
    locked := hG.locked.imp_right fun hover => ⟨hover.1, hover.2.trans hle⟩
    times := fun v hv => (hG.times v hv).trans hle }

/-- A verification that ended now enters the history of the client that was let in. -/
theorem Gated.verified {c : String} {clock now : Int} {st : SessionStore} {h : List Verification}
    (hG : Gated c clock st h) (hopen : (st.gate c).lockedUntil = 0) (hover : lockEnd h ≤ clock)
    (hnow : clock ≤ now) (success : Bool) :
    Gated c now (if success then st.loginSucceeded c else st.loginFailed now c)
      (⟨now, success⟩ :: h) := by
  have hpos := hG.clock_nonneg.trans hnow
  have htimes : ∀ v ∈ (⟨now, success⟩ :: h : List Verification), v.time ≤ now :=
    List.forall_mem_cons.mpr ⟨le_refl now, fun v hv => (hG.times v hv).trans hnow⟩
  have hpaced : Paced (⟨now, success⟩ :: h) := by
    refine ⟨fun w hw => (hG.times w hw).trans hnow, ?_, hG.paced⟩
    intro t ht
    rw [lockEnd, ht] at hover
    exact hover.trans hnow
  cases success with
  | true =>
    have hgate : (st.loginSucceeded c).gate c = {} := by rw [gate_loginSucceeded, if_pos rfl]
    refine ⟨hpos, ?_, ?_, ?_, htimes, hpaced⟩ <;> rw [if_pos rfl, hgate]
    · rfl
    · exact .inl rfl
    · exact fun _ => rfl
  | false =>
    have hle : (st.gate c).lockedUntil ≤ now := hopen ▸ hpos
    have hlt := failsSince_lt h
    have hgate := gate_loginFailed st now c c
    rw [if_pos rfl, if_neg (not_lt.mpr hle), hG.fails_eq] at hgate
    -- The fifth failure locks and starts the count anew, any other one counts.
    by_cases hfifth : failsSince h + 1 = kMaxFails
    · rw [if_pos hfifth.ge] at hgate
      refine ⟨hpos, ?_, ?_, ?_, htimes, hpaced⟩ <;> rw [if_neg Bool.false_ne_true, hgate]
      · rw [failsSince, if_pos hfifth]
      · rw [lockEnd_failed, if_pos hfifth]; exact .inl rfl
      · exact fun _ => rfl
    · rw [if_neg (by omega)] at hgate
      refine ⟨hpos, ?_, ?_, ?_, htimes, hpaced⟩ <;> rw [if_neg Bool.false_ne_true, hgate]
      · rw [failsSince, if_neg hfifth]
      · rw [lockEnd_failed, if_neg hfifth]; exact .inr ⟨hopen, hover.trans hnow⟩
      · exact fun hne => absurd hopen hne

theorem attempt_of_refused {st : SessionStore} {a : LoginAttempt}
    (h : (st.loginAllowed a.now a.clientId).2 = false) : st.attempt a = (st, false) := by
  simp only [attempt, h, Bool.not_false, if_true, loginAllowed_refused h]

theorem attempt_of_allowed {st : SessionStore} {a : LoginAttempt}
    (h : (st.loginAllowed a.now a.clientId).2 = true) :
    st.attempt a =
      (match a.verified with
        | none => (st.loginAllowed a.now a.clientId).1
        | some false => (st.loginAllowed a.now a.clientId).1.loginFailed a.later a.clientId
        | some true => (st.loginAllowed a.now a.clientId).1.loginSucceeded a.clientId, true) := by
  simp only [attempt, h, Bool.not_true, Bool.false_eq_true, if_false]
  split <;> rfl

theorem attempt_snd (st : SessionStore) (a : LoginAttempt) :
    (st.attempt a).2 = (st.loginAllowed a.now a.clientId).2 := by
  cases h : (st.loginAllowed a.now a.clientId).2 with
  | false => rw [attempt_of_refused h]
  | true => rw [attempt_of_allowed h]

/-- A request that is refused changes nothing. -/
theorem attempt_refused {st : SessionStore} {a : LoginAttempt} (h : (st.attempt a).2 = false) :
    (st.attempt a).1 = st := by
  rw [attempt_snd] at h
  rw [attempt_of_refused h]

theorem loginAllowed_congr {st st' : SessionStore} (h : st.logins = st'.logins) (now : Int)
    (clientId : String) :
    (st.loginAllowed now clientId).1.logins = (st'.loginAllowed now clientId).1.logins ∧
      (st.loginAllowed now clientId).2 = (st'.loginAllowed now clientId).2 := by
  unfold loginAllowed
  rw [h]
  cases st'.logins[clientId]? with
  | none => exact ⟨h, rfl⟩
  | some g =>
    by_cases hlocked : g.lockedUntil > now
    · simp [hlocked, h]
    · by_cases hzero : g.lockedUntil ≠ 0
      · simp [hlocked, hzero]
      · simp [hlocked, hzero, h]

theorem loginFailed_congr {st st' : SessionStore} (h : st.logins = st'.logins) (now : Int)
    (clientId : String) :
    (st.loginFailed now clientId).logins = (st'.loginFailed now clientId).logins := by
  unfold loginFailed
  rw [h]
  dsimp only
  split <;> rfl

/-- What a request does to the gates, and its answer, depend on the gates only. -/
theorem attempt_congr {st st' : SessionStore} (h : st.logins = st'.logins) (a : LoginAttempt) :
    (st.attempt a).1.logins = (st'.attempt a).1.logins ∧ (st.attempt a).2 = (st'.attempt a).2 := by
  obtain ⟨hlogins, hanswer⟩ := loginAllowed_congr h a.now a.clientId
  refine ⟨?_, by rw [attempt_snd, attempt_snd, hanswer]⟩
  cases hallowed : (st.loginAllowed a.now a.clientId).2 with
  | false =>
    rw [attempt_of_refused hallowed, attempt_of_refused (hanswer ▸ hallowed)]
    exact h
  | true =>
    rw [attempt_of_allowed hallowed, attempt_of_allowed (hanswer ▸ hallowed)]
    cases a.verified with
    | none => exact hlogins
    | some verified =>
      cases verified with
      | false => exact loginFailed_congr hlogins a.later a.clientId
      | true => exact congrArg (fun logins => logins.erase a.clientId) hlogins

/-- A request touches the gate of the client that sent it only. -/
theorem gate_attempt_of_ne {st : SessionStore} {a : LoginAttempt} {c : String}
    (hc : c ≠ a.clientId) : (st.attempt a).1.gate c = st.gate c := by
  cases h : (st.loginAllowed a.now a.clientId).2 with
  | false => rw [attempt_of_refused h]
  | true =>
    have hasked : (st.loginAllowed a.now a.clientId).1.gate c = st.gate c := by
      rw [gate_loginAllowed, if_neg fun h => hc h.1]
    rw [attempt_of_allowed h]
    split
    · exact hasked
    · rw [gate_loginFailed, if_neg hc, hasked]
    · rw [gate_loginSucceeded, if_neg hc, hasked]

/-- What a request does to the gate of its client depends on that gate only. -/
theorem gate_attempt_congr {st st' : SessionStore} {a : LoginAttempt} (hnow : 0 ≤ a.now)
    (h : st.gate a.clientId = st'.gate a.clientId) :
    (st.attempt a).1.gate a.clientId = (st'.attempt a).1.gate a.clientId ∧
      (st.attempt a).2 = (st'.attempt a).2 := by
  have hsnd : (st.loginAllowed a.now a.clientId).2 = (st'.loginAllowed a.now a.clientId).2 := by
    rw [loginAllowed_snd st hnow, loginAllowed_snd st' hnow, h]
  have hasked : (st.loginAllowed a.now a.clientId).1.gate a.clientId =
      (st'.loginAllowed a.now a.clientId).1.gate a.clientId := by
    rw [gate_loginAllowed, gate_loginAllowed, h]
  refine ⟨?_, by rw [attempt_snd, attempt_snd, hsnd]⟩
  cases hallowed : (st.loginAllowed a.now a.clientId).2 with
  | false => rw [attempt_of_refused hallowed, attempt_of_refused (hsnd ▸ hallowed), h]
  | true =>
    rw [attempt_of_allowed hallowed, attempt_of_allowed (hsnd ▸ hallowed)]
    split
    · exact hasked
    · rw [gate_loginFailed, gate_loginFailed, hasked]
    · rw [gate_loginSucceeded, gate_loginSucceeded, if_pos rfl, if_pos rfl]

/-- One request keeps the gate of the client that sent it in step with its history. -/
theorem Gated.attempt {a : LoginAttempt} {clock : Int} {st : SessionStore} {h : List Verification}
    (hG : Gated a.clientId clock st h) (hnow : clock ≤ a.now) (hlater : a.now ≤ a.later) :
    Gated a.clientId a.later (st.attempt a).1
      (a.verification a.clientId (st.attempt a).2 ++ h) := by
  have hanswer := hG.loginAllowed hnow
  by_cases hover : lockEnd h ≤ a.now
  · obtain ⟨hasked, hopen⟩ := hG.allowed hnow hover
    rw [decide_eq_true hover] at hanswer
    rw [attempt_of_allowed hanswer]
    unfold LoginAttempt.verification
    cases hverified : a.verified with
    | none => simpa using hasked.mono hlater
    | some success =>
      have hdone := hasked.verified hopen hover hlater success
      cases success with
      | true => simpa using hdone
      | false => simpa using hdone
  · rw [decide_eq_false hover] at hanswer
    have hrefused : (st.attempt a).2 = false := (attempt_snd st a).trans hanswer
    rw [attempt_refused hrefused, hrefused]
    simpa [LoginAttempt.verification] using hG.mono (hnow.trans hlater)

theorem LoginAttempt.reverse_verification (c : String) (a : LoginAttempt) (allowed : Bool) :
    (a.verification c allowed).reverse = a.verification c allowed := by
  unfold LoginAttempt.verification
  split
  · split <;> rfl
  · rfl

/-- Every run keeps every client's gate in step with its history. -/
theorem Gated.run {c : String} {clock : Int} {st : SessionStore} {h : List Verification}
    (hG : Gated c clock st h) {as : List LoginAttempt}
    (horder : InOrder LoginAttempt.now LoginAttempt.later clock as) :
    Gated c (lastReading LoginAttempt.later clock as) (gates.run st as)
      ((verifications c as (gates.outputs st as)).reverse ++ h) := by
  induction as generalizing clock st h with
  | nil => exact hG
  | cons a as ih =>
    obtain ⟨hnow, hlater, horder⟩ := horder
    have hstep : Gated c a.later (gates.next st a)
        (a.verification c (gates.out st a) ++ h) := by
      by_cases hc : c = a.clientId
      · subst hc
        exact hG.attempt hnow hlater
      · have hnone : a.verification c (gates.out st a) = [] := by
          rw [LoginAttempt.verification, if_neg fun h => hc h.1.symm]
        have hgate : (gates.next st a).gate c = st.gate c := gate_attempt_of_ne hc
        have hG' := hG.mono (hnow.trans hlater)
        rw [hnone]
        exact ⟨hG'.clock_nonneg, by rw [hgate]; exact hG'.fails_eq, by rw [hgate]; exact hG'.locked,
          by rw [hgate]; exact hG'.reset, hG'.times, hG'.paced⟩
    have hrest := ih hstep horder
    rw [run_cons, outputs_cons, verifications, List.reverse_append,
      LoginAttempt.reverse_verification, List.append_assoc]
    exact hrest

theorem Gated.initial (c : String) (ttl : Int) : Gated c 0 { ttl := ttl } [] := by
  have hgate : ({ ttl := ttl } : SessionStore).gate c = {} := by simp [gate]
  refine ⟨le_refl 0, ?_, ?_, ?_, nofun, trivial⟩
  · rw [hgate]; rfl
  · rw [hgate]; exact .inl rfl
  · rw [hgate]; exact fun _ => rfl

/-! ### How many failures fit into a window -/

/-- A failure in `[T, T + d)`. -/
def Verification.failedIn (T d : Int) (v : Verification) : Bool :=
  !v.success && decide (T ≤ v.time ∧ v.time < T + d)

/-- The failures of a history in `[T, T + d)`. -/
def failuresIn (T d : Int) (h : List Verification) : Nat := h.countP (Verification.failedIn T d)

/-- No success of the history is in `[T, T + d)`. -/
def NoSuccessIn (T d : Int) (h : List Verification) : Prop :=
  ∀ v ∈ h, v.success = true → ¬(T ≤ v.time ∧ v.time < T + d)

theorem failuresIn_eq_zero {T d : Int} {h : List Verification}
    (hout : ∀ v ∈ h, ¬(T ≤ v.time ∧ v.time < T + d)) : failuresIn T d h = 0 := by
  refine List.countP_eq_zero.mpr ?_
  intro v hv
  simp [Verification.failedIn, decide_eq_false (hout v hv)]

/-- One lock period holds five failures at most. The induction carries more: while the
history has not left the window, the failures in it are those counted now, unless the
last lock event was in the window; then there are no more to come. -/
theorem failuresIn_lockSeconds_le {T : Int} {h : List Verification} (hpaced : Paced h)
    (hsuccess : NoSuccessIn T kLockSeconds h) :
    failuresIn T kLockSeconds h ≤ kMaxFails ∧
      ((∀ v ∈ h, v.time < T + kLockSeconds) → failuresIn T kLockSeconds h ≤ failsSince h ∨
        ∃ t, lastLock h = some t ∧ T ≤ t) := by
  induction h with
  | nil => exact ⟨Nat.zero_le _, fun _ => .inl (Nat.le_refl 0)⟩
  | cons v h ih =>
    obtain ⟨hsorted, hlock, hpaced⟩ := hpaced
    obtain ⟨hle, hcount⟩ := ih hpaced fun w hw => hsuccess w (List.mem_cons_of_mem v hw)
    obtain ⟨t, success⟩ := v
    by_cases hin : T ≤ t ∧ t < T + kLockSeconds
    · have hfailed : success = false := by
        rw [← Bool.not_eq_true]
        exact fun hs => hsuccess _ List.mem_cons_self hs hin
      subst hfailed
      have hone : failuresIn T kLockSeconds (⟨t, false⟩ :: h) = failuresIn T kLockSeconds h + 1 := by
        simp [failuresIn, Verification.failedIn, hin]
      have hlt := failsSince_lt h
      -- Within the window: the last lock event cannot be in it, or `v` would be refused.
      rcases hcount fun w hw => (hsorted w hw).trans_lt hin.2 with hcount | ⟨u, hu, hTu⟩
      · rw [hone]
        refine ⟨by omega, ?_⟩
        intro _
        by_cases hfifth : failsSince h + 1 = kMaxFails
        · exact .inr ⟨t, by rw [lastLock, if_pos hfifth], hin.1⟩
        · refine .inl ?_
          rw [failsSince, if_neg hfifth]
          omega
      · have hafter : u + kLockSeconds ≤ t := hlock u hu
        have hbefore := hin.2
        omega
    · have hsame : failuresIn T kLockSeconds (⟨t, success⟩ :: h) = failuresIn T kLockSeconds h := by
        simp [failuresIn, Verification.failedIn, hin]
      rw [hsame]
      refine ⟨hle, fun hbefore => .inl ?_⟩
      -- `v` is before the window, and so is the rest.
      have htT : t < T := by
        have htd := hbefore _ List.mem_cons_self
        have hnot : ¬T ≤ t := fun hT => hin ⟨hT, htd⟩
        omega
      rw [failuresIn_eq_zero fun w hw hwin => ?_]
      · exact Nat.zero_le _
      · have hwt : w.time ≤ t := hsorted w hw
        have hTw := hwin.1
        omega

theorem failuresIn_add (T : Int) {d e : Int} (hd : 0 ≤ d) (he : 0 ≤ e) (h : List Verification) :
    failuresIn T (d + e) h = failuresIn T d h + failuresIn (T + d) e h := by
  unfold failuresIn
  induction h with
  | nil => rfl
  | cons v h ih =>
    have hone : (if v.failedIn T (d + e) = true then 1 else 0) =
        (if v.failedIn T d = true then 1 else 0) +
          (if v.failedIn (T + d) e = true then 1 else 0) := by
      simp only [Verification.failedIn, Bool.and_eq_true, Bool.not_eq_true', decide_eq_true_eq]
      grind
    rw [List.countP_cons, List.countP_cons, List.countP_cons, hone, ih]
    omega

/-- `k` lock periods hold `5 k` failures at most. -/
theorem failuresIn_le {h : List Verification} (hpaced : Paced h) (T : Int) (k : Nat)
    (hsuccess : NoSuccessIn T (kLockSeconds * k) h) :
    failuresIn T (kLockSeconds * k) h ≤ kMaxFails * k := by
  have hlock : (0 : Int) ≤ kLockSeconds := by decide
  induction k generalizing T with
  | zero =>
    rw [failuresIn_eq_zero fun v _ hv => ?_]
    · exact Nat.zero_le _
    · simp at hv; omega
  | succ k ih =>
    have hk : (0 : Int) ≤ kLockSeconds * k := Int.mul_nonneg hlock (by omega)
    have hsplit : kLockSeconds * (k + 1 : Nat) = kLockSeconds + kLockSeconds * k := by
      rw [Int.natCast_succ, Int.mul_add, Int.mul_one, Int.add_comm]
    rw [hsplit] at hsuccess ⊢
    have hfirst := (failuresIn_lockSeconds_le (T := T) hpaced
      fun v hv hs hin => hsuccess v hv hs (by omega)).1
    have hrest := ih (T + kLockSeconds) fun v hv hs hin => hsuccess v hv hs (by omega)
    rw [failuresIn_add T hlock hk, Nat.mul_succ]
    omega

/-! ### The whole statement -/

/-- The rules of the gate, in a run of these requests on a store in which nothing was
counted yet. -/
structure Throttled (ttl : Int) (as : List LoginAttempt) : Prop where
  /-- A client is refused exactly during the 300 seconds after its last lock event. -/
  refused_iff : ∀ c now, lastReading LoginAttempt.later 0 as ≤ now →
    (((gates.run { ttl := ttl } as).loginAllowed now c).2 = false ↔
      ∃ t, lastLock (verifications c as (gates.outputs { ttl := ttl } as)).reverse = some t ∧
        now < t + 300)
  /-- `k` times 300 seconds without a success of the client hold at most `5 k` failures. -/
  failures_le : ∀ c T, ∀ k : Nat, 1 ≤ k →
    NoSuccessIn T (300 * k) (verifications c as (gates.outputs { ttl := ttl } as)) →
    failuresIn T (300 * k) (verifications c as (gates.outputs { ttl := ttl } as)) ≤ 5 * k
  /-- A request that is refused changes nothing, so no lock grows. -/
  untouched : ∀ a, gates.out (gates.run { ttl := ttl } as) a = false →
    gates.next (gates.run { ttl := ttl } as) a = gates.run { ttl := ttl } as
  /-- A client is answered as in the run without the requests of all others. -/
  alone : ∀ c, gates.answers (fun a => a.clientId = c) { ttl := ttl } as =
    gates.outputs { ttl := ttl } (as.filter fun a => a.clientId = c)

/-- The gate keeps its rules in every run whose clock readings never go back. -/
theorem gates_throttled {ttl : Int} {as : List LoginAttempt}
    (horder : InOrder LoginAttempt.now LoginAttempt.later 0 as) : Throttled ttl as := by
  have hgated := fun c => (Gated.initial c ttl).run horder
  simp only [List.append_nil] at hgated
  refine ⟨?_, ?_, fun a => attempt_refused, ?_⟩
  · intro c now hnow
    have hpos : 0 ≤ now := (le_lastReading horder).trans hnow
    rw [(hgated c).loginAllowed hnow, decide_eq_false_iff_not, lockEnd]
    cases lastLock (verifications c as (gates.outputs { ttl := ttl } as)).reverse with
    | none => simp [hpos]
    | some t => simp [kLockSeconds]
  · intro c T k _ hsuccess
    have hwindow := failuresIn_le (hgated c).paced T k
      fun v hv => hsuccess v (List.mem_reverse.mp hv)
    rwa [failuresIn, List.countP_reverse] at hwindow
  · intro c
    -- Requests of `c` look at the gate of `c` only.
    refine answers_filter_clocked (R := fun clock st st' => 0 ≤ clock ∧ st.gate c = st'.gate c)
      ?_ ?_
      ⟨le_refl 0, rfl⟩ horder
    · intro clock st st' a hp hR hnow hlater
      have hother : c ≠ a.clientId := Ne.symm (of_decide_eq_false hp)
      exact ⟨hR.1.trans (hnow.trans hlater), (gate_attempt_of_ne hother).trans hR.2⟩
    · intro clock st st' a hp hR hnow hlater
      obtain rfl := of_decide_eq_true hp
      obtain ⟨hgate, hout⟩ := gate_attempt_congr (hR.1.trans hnow) hR.2
      exact ⟨⟨hR.1.trans (hnow.trans hlater), hgate⟩, hout⟩

end SessionStore

end TiBackup
