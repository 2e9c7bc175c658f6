import TiBackup.Auth.Login
import TiBackup.Model.Reference

/-!
# TiBackup.Auth.Credential

**The life of the admin password.** First-run setup, logins and `--set-web-password`
are the three things that touch `web/salt` and `web/passhash`. `Credential` is what
holds of the two keys after any run of them: they form a record of the password most
recently set, and if that record is a legacy one, it is the one the run began with,
for nothing writes that format any more.

A login that verifies may rewrite the record, but with the very password it verified.
That this is the password most recently set is what the absence of legacy collisions
is needed for.
-/

namespace TiBackup

open Lib Lib.Machine PasswordHash

variable {L : Library}

/-- What happens to the admin password. -/
inductive AdminEvent
  | setup (req : Request) (m : Moment)
  | login (req : Request) (m : Moment)
  | setWebPassword (pw : String) (rawSalt : { raw : Bytes // raw.length = 16 })

/-- How it ends: the status of the response, if it is ready, or the exit code. -/
inductive Outcome
  | answer (status : Option StatusCode)
  | exit (code : Nat)
  deriving DecidableEq

/-- `--set-web-password` stores the password unless it is too short. -/
theorem setWebPassword_cases (pw : String) (rawSalt : { raw : Bytes // raw.length = 16 })
    (st : State L) :
    ((setWebPassword pw rawSalt st).1 = st ∧ (setWebPassword pw rawSalt st).2 = 1) ∨
      ((setWebPassword pw rawSalt st).1 = Api.setPassword pw rawSalt st ∧
        (setWebPassword pw rawSalt st).2 = 0) := by
  unfold setWebPassword
  split
  · exact .inl ⟨rfl, rfl⟩
  · exact .inr ⟨rfl, rfl⟩

/-! ### Runs -/

/-- The daemon, as far as the admin password is concerned. -/
def admin (L : Library) : Machine (State L) AdminEvent Outcome where
  step st
    | .setup req m => ((Api.setup req m st).1, Outcome.answer (Api.replyStatus (Api.setup req m st).2))
    | .login req m => ((Api.login req m st).1, Outcome.answer (Api.replyStatus (Api.login req m st).2))
    | .setWebPassword pw rawSalt =>
      ((setWebPassword pw rawSalt st).1, .exit (setWebPassword pw rawSalt st).2)

/-- The password after one event: a setup or `--set-web-password` that succeeds sets
another one. -/
def passwordAfter (p : Option String) : AdminEvent → Outcome → Option String
  | .setup req _, .answer (some .ok) => some (Api.bodyPassword req)
  | .setWebPassword pw _, .exit 0 => some pw
  | _, _ => p

/-- The password most recently set, when `p` was set before the events. -/
def lastSet (p : Option String) : List AdminEvent → List Outcome → Option String
  | e :: es, o :: os => lastSet (passwordAfter p e o) es os
  | _, _ => p

/-- The passwords typed at the login. -/
def AdminEvent.tried : AdminEvent → Option String
  | .login req _ => some (Api.bodyPassword req)
  | _ => none

/-- The two keys hold a record of the password `p`; a legacy record is the one of
`p₀` and `salt₀`. -/
structure Credential (p₀ : Option String) (salt₀ : Bytes) (st : State L) (p : Option String) :
    Prop where
  record : Record L.digests p (Api.webSalt st) (Api.webPasshash st)
  legacy : ∀ pw, p = some pw → needsUpgrade (Api.webPasshash st) = true →
    p₀ = some pw ∧ Api.webSalt st = salt₀

namespace Credential

variable {p₀ p : Option String} {salt₀ : Bytes} {st st' : State L}

theorem congr (h : Credential p₀ salt₀ st p) (hconf : st'.conf = st.conf) :
    Credential p₀ salt₀ st' p := by
  constructor
  · rw [Api.webSalt_congr hconf, Api.webPasshash_congr hconf]
    exact h.record
  · rw [Api.webSalt_congr hconf, Api.webPasshash_congr hconf]
    exact h.legacy

/-- A record that was just written. -/
theorem of_setPassword {pw : String} {rawSalt : { raw : Bytes // raw.length = 16 }}
    (hconf : st'.conf = (Api.setPassword pw rawSalt st).conf) :
    Credential p₀ salt₀ st' (some pw) := by
  constructor
  · rw [Api.webSalt_congr hconf, Api.webPasshash_congr hconf, Api.webSalt_setPassword,
      Api.webPasshash_setPassword]
    exact record_fresh pw rawSalt
  · intro _ _ hold
    rw [Api.webPasshash_congr hconf, Api.webPasshash_setPassword, needsUpgrade_hash] at hold
    cases hold

/-- A password that verifies against a legacy record is the one that was set. -/
theorem password_of_legacy (h : Credential p₀ salt₀ st p) {tried : String}
    (hcollision : ∀ pw, p₀ = some pw → legacyHashHex L.digests tried salt₀ kLegacyIterations =
      legacyHashHex L.digests pw salt₀ kLegacyIterations → tried = pw)
    (hold : needsUpgrade (Api.webPasshash st) = true)
    (hverify : verify L.digests tried (Api.webSalt st) (Api.webPasshash st) = true) :
    p = some tried := by
  obtain ⟨hrecord, hlegacy⟩ := h
  generalize Api.webSalt st = salt at hrecord hlegacy hverify
  generalize Api.webPasshash st = passhash at hrecord hlegacy hold hverify
  cases hrecord with
  | empty => simp [verify] at hverify
  | pbkdf2 pw n => rw [needsUpgrade_hash] at hold; cases hold
  | legacy pw hsalt =>
    obtain ⟨hp₀, rfl⟩ := hlegacy pw rfl hold
    rw [hcollision pw hp₀ ((verify_legacy_iff L.digests pw tried hsalt).mp hverify)]

/-- One event keeps the record in step with the password most recently set. -/
theorem step (h : Credential p₀ salt₀ st p) (e : AdminEvent)
    (hcollision : ∀ tried pw, e.tried = some tried → p₀ = some pw →
      legacyHashHex L.digests tried salt₀ kLegacyIterations =
        legacyHashHex L.digests pw salt₀ kLegacyIterations → tried = pw) :
    Credential p₀ salt₀ ((admin L).next st e) (passwordAfter p e ((admin L).out st e)) := by
  cases e with
  | setup req m =>
    rcases Api.setup_cases req m st with ⟨hst, hout⟩ | ⟨-, hout, hconf⟩
    · have hp : passwordAfter p (.setup req m) ((admin L).out st (.setup req m)) = p := by
        unfold passwordAfter
        split
        · next ho => exact absurd (Outcome.answer.inj ho) hout
        · next heq _ => cases heq
        · rfl
      rw [hp]
      exact h.congr (congrArg State.conf hst)
    · have hout : (admin L).out st (.setup req m) = .answer (some .ok) := congrArg _ hout
      rw [hout]
      exact of_setPassword hconf
  | login req m =>
    have hp : passwordAfter p (.login req m) ((admin L).out st (.login req m)) = p := rfl
    rw [hp]
    rcases Api.login_cases req m st with ⟨-, hconf, -⟩ | ⟨⟨-, hverify⟩, hconf, -⟩
    · exact h.congr hconf
    · by_cases hold : needsUpgrade (Api.webPasshash st) = true
      · rw [if_pos hold] at hconf
        rw [h.password_of_legacy (fun pw => hcollision _ pw rfl) hold hverify]
        exact of_setPassword hconf
      · rw [if_neg hold] at hconf
        exact h.congr hconf
  | setWebPassword pw rawSalt =>
    rcases setWebPassword_cases pw rawSalt st with ⟨hst, hcode⟩ | ⟨hst, hcode⟩
    · have hout : (admin L).out st (.setWebPassword pw rawSalt) = .exit 1 := congrArg _ hcode
      rw [hout]
      exact h.congr (congrArg State.conf hst)
    · have hout : (admin L).out st (.setWebPassword pw rawSalt) = .exit 0 := congrArg _ hcode
      rw [hout]
      exact of_setPassword (congrArg State.conf hst)

/-- And so does every run. -/
theorem run (h : Credential p₀ salt₀ st p) {es : List AdminEvent}
    (hcollision : ∀ e ∈ es, ∀ tried pw, e.tried = some tried → p₀ = some pw →
      legacyHashHex L.digests tried salt₀ kLegacyIterations =
        legacyHashHex L.digests pw salt₀ kLegacyIterations → tried = pw) :
    Credential p₀ salt₀ ((admin L).run st es) (lastSet p es ((admin L).outputs st es)) := by
  induction es generalizing st p with
  | nil => exact h
  | cons e es ih =>
    exact ih (h.step e (hcollision e List.mem_cons_self))
      fun e' he' => hcollision e' (List.mem_cons_of_mem e he')

end Credential

/-! ### What is never undone -/

/-- An event leaves the configuration alone or stores the record of a password. -/
theorem conf_next_admin (st : State L) (e : AdminEvent) :
    ((admin L).next st e).conf = st.conf ∨
      ∃ pw rawSalt, ((admin L).next st e).conf = (Api.setPassword pw rawSalt st).conf := by
  cases e with
  | setup req m =>
    rcases Api.setup_cases req m st with ⟨hst, -⟩ | ⟨-, -, hconf⟩
    · exact .inl (congrArg State.conf hst)
    · exact .inr ⟨_, _, hconf⟩
  | login req m =>
    rcases Api.login_cases req m st with ⟨-, hconf, -⟩ | ⟨-, hconf, -⟩
    · exact .inl hconf
    · split at hconf
      · exact .inr ⟨_, _, hconf⟩
      · exact .inl hconf
  | setWebPassword pw rawSalt =>
    rcases setWebPassword_cases pw rawSalt st with ⟨hst, -⟩ | ⟨hst, -⟩
    · exact .inl (congrArg State.conf hst)
    · exact .inr ⟨_, _, congrArg State.conf hst⟩

/-- A property of the stored hash that every new record has is never lost. -/
theorem webPasshash_run {P : String → Prop} (hP : ∀ pw salt n, P (hash L.digests pw salt n))
    {st : State L} (h : P (Api.webPasshash st)) (es : List AdminEvent) :
    P (Api.webPasshash ((admin L).run st es)) := by
  induction es generalizing st with
  | nil => exact h
  | cons e es ih =>
    refine ih ?_
    rcases conf_next_admin st e with hconf | ⟨pw, rawSalt, hconf⟩
    · rwa [Api.webPasshash_congr hconf]
    · rw [Api.webPasshash_congr hconf, Api.webPasshash_setPassword]
      exact hP _ _ _

/-- A login that rewrites the record leaves one that needs no upgrade. -/
theorem needsUpgrade_of_rewritten {req : Request} {m : Moment} {st : State L}
    (h : (Api.login req m st).1.conf ≠ st.conf) :
    needsUpgrade (Api.webPasshash (Api.login req m st).1) = false := by
  rcases Api.login_cases req m st with ⟨-, hconf, -⟩ | ⟨-, hconf, -⟩
  · exact absurd hconf h
  · split at hconf
    · rw [Api.webPasshash_congr hconf, Api.webPasshash_setPassword]
      exact needsUpgrade_hash _ _ _ _
    · exact absurd hconf h

/-- A login against a current record rewrites nothing. -/
theorem login_conf_of_current {req : Request} {m : Moment} {st : State L}
    (h : needsUpgrade (Api.webPasshash st) = false) : (Api.login req m st).1.conf = st.conf := by
  rcases Api.login_cases req m st with ⟨-, hconf, -⟩ | ⟨-, hconf, -⟩
  · exact hconf
  · rwa [if_neg (by rw [h]; exact Bool.false_ne_true)] at hconf

/-! ### The whole statement -/

/-- **The life cycle of the admin credential.** In every run of setups, logins and
`--set-web-password` on an empty record, or on one of either format: (1) once there is
a hash, a setup changes nothing; (2) a client that is not locked out logs in with the
password most recently set: it is answered with ok, a session is entered and its tokens are
given out; (3) a login that fails leaves the configuration, and so
the record, as it is; (4) after a login that changed it no other login does, in the
whole run. -/
theorem credential_life_cycle {st : State L} {p₀ : Option String} {es : List AdminEvent}
    (hrecord : Record L.digests p₀ (Api.webSalt st) (Api.webPasshash st))
    (hcollision : ∀ e ∈ es, ∀ tried pw, e.tried = some tried → p₀ = some pw →
      legacyHashHex L.digests tried (Api.webSalt st) kLegacyIterations =
        legacyHashHex L.digests pw (Api.webSalt st) kLegacyIterations → tried = pw) :
    (∀ pre mid req m post, es = pre ++ mid ++ .setup req m :: post →
      Api.webPasshash ((admin L).run st pre) ≠ "" →
      (admin L).next ((admin L).run st (pre ++ mid)) (.setup req m) =
        (admin L).run st (pre ++ mid)) ∧
    (∀ pre req m post, es = pre ++ .login req m :: post →
      lastSet p₀ pre ((admin L).outputs st pre) = some (Api.bodyPassword req) →
      (((admin L).run st pre).sessions.loginAllowed m.now req.remoteAddress).2 = true →
      (admin L).out ((admin L).run st pre) (.login req m) = .answer (some .ok) ∧
        Api.GivesSession m (Api.login req m ((admin L).run st pre))) ∧
    (∀ pre req m post, es = pre ++ .login req m :: post →
      (admin L).out ((admin L).run st pre) (.login req m) ≠ .answer (some .ok) →
      ((admin L).next ((admin L).run st pre) (.login req m)).conf =
        ((admin L).run st pre).conf) ∧
    (∀ pre req m mid req' m' post,
      es = pre ++ .login req m :: (mid ++ .login req' m' :: post) →
      ((admin L).run st (pre ++ [.login req m])).conf ≠ ((admin L).run st pre).conf →
      ((admin L).run st (pre ++ .login req m :: (mid ++ [.login req' m']))).conf =
        ((admin L).run st (pre ++ .login req m :: mid)).conf) := by
  refine ⟨?_, ?_, ?_, ?_⟩
  · rintro pre mid req m post - hset
    -- A password that was set once is there for ever: every write stores a hash.
    have hset' := webPasshash_run (P := (· ≠ "")) (hash_ne_empty L.digests) hset mid
    rw [← run_append] at hset'
    rcases Api.setup_cases req m ((admin L).run st (pre ++ mid)) with ⟨hst, -⟩ | ⟨hempty, -⟩
    · exact hst
    · exact absurd hempty hset'
  · rintro pre req m post rfl hlast hallowed
    -- The record verifies the password that was set last, upgraded or not.
    have hcred : Credential p₀ (Api.webSalt st) st p₀ := ⟨hrecord, fun pw hp _ => ⟨hp, rfl⟩⟩
    have hrun := hcred.run fun e (he : e ∈ pre) => hcollision e (List.mem_append_left _ he)
    rw [hlast] at hrun
    have hgives := Api.givesSession_login hallowed hrun.record.verify
    refine ⟨?_, hgives⟩
    show Outcome.answer (Api.replyStatus (Api.login req m ((admin L).run st pre)).2) = _
    rw [hgives.answer]
    rfl
  · rintro pre req m post - hfailed
    rcases Api.login_cases req m ((admin L).run st pre) with ⟨-, hconf, -⟩ | ⟨-, -, hok⟩
    · exact hconf
    · exact absurd (congrArg Outcome.answer hok) hfailed
  · rintro pre req m mid req' m' post - hrewritten
    rw [run_append] at hrewritten
    -- The first rewrite leaves a record that needs no upgrade, and so does every later write.
    have hcurrent := webPasshash_run (P := (needsUpgrade · = false)) (needsUpgrade_hash L.digests)
      (needsUpgrade_of_rewritten hrewritten) mid
    simp only [run_append, run_cons, run_nil]
    exact login_conf_of_current hcurrent

/-- A daemon whose password was set before PBKDF2 records existed. -/
def legacyState : State Reference.library :=
  (Reference.initial.setValue "web/salt" (.str (fromLatin1 (toHex (List.replicate 16 7))))).setValue
    "web/passhash" (.str (fromLatin1 (legacyHashHex Reference.digests "old password"
      (toHex (List.replicate 16 7)) kLegacyIterations)))

/-- Two logins with that password: the first one upgrades the record. -/
def upgradeRun : List AdminEvent :=
  let req := Reference.request (.obj [("password", .str "old password")])
  [.login req (Reference.moment ""), .login req (Reference.moment "")]

theorem credential_life_cycle_upgradeRun :
    Record Reference.digests (some "old password") (Api.webSalt legacyState)
      (Api.webPasshash legacyState) ∧
    (∀ pre req m post, upgradeRun = pre ++ .login req m :: post →
      lastSet (some "old password") pre ((admin Reference.library).outputs legacyState pre) =
        some (Api.bodyPassword req) →
      (((admin Reference.library).run legacyState pre).sessions.loginAllowed m.now
        req.remoteAddress).2 = true →
      (admin Reference.library).out ((admin Reference.library).run legacyState pre)
          (.login req m) = .answer (some .ok) ∧
        Api.GivesSession m
          (Api.login req m ((admin Reference.library).run legacyState pre))) := by
  have hsalt : Api.webSalt legacyState = toHex (List.replicate 16 7) := by
    rw [Api.webSalt, legacyState, State.getValue_setValue_of_ne _ (by decide),
      State.getValue_setValue_self, QVariant.toString_str, toLatin1_fromLatin1]
  have hhash : Api.webPasshash legacyState = fromLatin1 (legacyHashHex Reference.digests
      "old password" (toHex (List.replicate 16 7)) kLegacyIterations) := by
    rw [Api.webPasshash, legacyState, State.getValue_setValue_self, QVariant.toString_str]
  have hrecord : Record Reference.library.digests (some "old password") (Api.webSalt legacyState)
      (Api.webPasshash legacyState) := by
    rw [hsalt, hhash]
    exact .legacy "old password" (by decide)
  have htried : ∀ e ∈ upgradeRun, e.tried = some "old password" := by
    intro e he
    simp only [upgradeRun, List.mem_cons, List.not_mem_nil, or_false, or_self] at he
    rw [he]
    rfl
  have hcollision : ∀ e ∈ upgradeRun, ∀ tried pw, e.tried = some tried →
      some "old password" = some pw → legacyHashHex Reference.library.digests tried
        (Api.webSalt legacyState) kLegacyIterations = legacyHashHex Reference.library.digests pw
        (Api.webSalt legacyState) kLegacyIterations → tried = pw := by
    intro e he tried pw ht hpw _
    rw [htried e he] at ht
    exact Option.some.inj (ht.symm.trans hpw)
  exact ⟨hrecord, (credential_life_cycle hrecord hcollision).2.1⟩

end TiBackup
