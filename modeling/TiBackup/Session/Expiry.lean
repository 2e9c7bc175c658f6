import TiBackup.Lib.Machine
import TiBackup.Model.SessionStore
import Mathlib.Data.Int.Order.Basic
import Mathlib.Logic.Function.Basic

/-!
# TiBackup.Session.Expiry

**The session store is an ideal sliding-expiry table.**

The store forgets a session in two places: `validate` erases an expired session it
is asked about, and `createSession` purges all of them. The ideal table forgets
nothing: a session is live when the last refresh is at most `ttl` seconds ago, and
that is all there is to it.

What the two have in common is `alive`: the session found under a token, unless it
has been idle for too long. Once an entry is out of `alive` it stays out, since the
clock never goes back, so a store may drop it at any time. Everything here follows
from that: the store and the table agree on `alive` at the last clock reading
(`Agrees`), and `validate` answers by `alive` alone.
-/

namespace TiBackup

open Lib Lib.Machine

namespace SessionStore

/-! ### What each operation does to one entry -/

/-- The session of an entry, unless it has been idle for longer than `ttl`. -/
def alive (ttl now : Int) (entry : Option Session) : Option Session :=
  entry.filter fun s => now - s.lastSeen ≤ ttl

@[simp] theorem alive_none (ttl now : Int) : alive ttl now none = none := rfl

theorem alive_some (ttl now : Int) (s : Session) :
    alive ttl now (some s) = if now - s.lastSeen ≤ ttl then some s else none := by
  simp [alive, Option.filter_some]

/-- An entry that is out stays out. -/
theorem alive_alive (ttl : Int) {t u : Int} (h : t ≤ u) (entry : Option Session) :
    alive ttl u (alive ttl t entry) = alive ttl u entry := by
  cases entry with
  | none => rfl
  | some s =>
    rw [alive_some ttl t]
    split
    · rfl
    · rw [alive_none, alive_some, if_neg (by omega)]

/-- Entries that agree on `alive` now agree at every later time. -/
theorem alive_congr {ttl t u : Int} (h : t ≤ u) {a b : Option Session}
    (hab : alive ttl t a = alive ttl t b) : alive ttl u a = alive ttl u b := by
  rw [← alive_alive ttl h a, hab, alive_alive ttl h b]

theorem alive_eq_none_mono {ttl t u : Int} (h : t ≤ u) {entry : Option Session}
    (hout : alive ttl t entry = none) : alive ttl u entry = none := by
  rw [← alive_alive ttl h, hout, alive_none]

theorem not_expired_iff (st : SessionStore) (now : Int) (s : Session) :
    st.expired now s = false ↔ now - s.lastSeen ≤ st.ttl := by
  simp [expired]

theorem sessions_purgeExpired (st : SessionStore) (now : Int) (t : String) :
    (st.purgeExpired now).sessions[t]? = alive st.ttl now st.sessions[t]? := by
  rw [purgeExpired, StringMap.get_filter]
  congr 1
  funext s
  rw [Bool.eq_iff_iff, Bool.not_eq_true', not_expired_iff, decide_eq_true_iff]

/-- `createSession` enters the new token and may lose expired entries. -/
theorem sessions_createSession (st : SessionStore) (rawToken rawCsrf : RandomBytes)
    (purgeNow now : Int) (t : String) :
    (st.createSession rawToken rawCsrf purgeNow now).1.sessions[t]? =
      if t = randomToken rawToken then some { csrf := randomToken rawCsrf, lastSeen := now }
      else alive st.ttl purgeNow st.sessions[t]? := by
  simp only [createSession]
  rw [StringMap.get_insert, sessions_purgeExpired]

/-- `validate` answers by `alive`. -/
theorem validate_snd (st : SessionStore) (now : Int) (token : String) :
    (st.validate now token).2 = (token ≠ "" && (alive st.ttl now st.sessions[token]?).isSome) := by
  unfold validate
  split
  · next hempty => simp [String.isEmpty_iff.mp hempty]
  · next hne =>
    have htoken : token ≠ "" := fun h => hne (by simp [h])
    split
    · next hnone => simp [hnone]
    · next s hs =>
      split
      · next hexp => simp [hs, alive_some, expired] at hexp ⊢; omega
      · next hexp => simp [hs, alive_some, expired, htoken] at hexp ⊢; omega

/-- `validate` touches the entry it is asked about only: a live session is refreshed,
an expired one is gone. -/
theorem sessions_validate (st : SessionStore) (now : Int) (token t : String) :
    (st.validate now token).1.sessions[t]? =
      if t = token ∧ token ≠ "" then
        (alive st.ttl now st.sessions[t]?).map fun s => { s with lastSeen := now }
      else st.sessions[t]? := by
  unfold validate
  split
  · next hempty => simp [String.isEmpty_iff.mp hempty]
  · next hne =>
    have htoken : token ≠ "" := fun h => hne (by simp [h])
    split
    · next hnone =>
      by_cases ht : t = token
      · simp [ht, hnone]
      · simp [ht]
    · next s hs =>
      by_cases ht : t = token
      · subst ht
        split
        · next hexp =>
          simp only [expired, decide_eq_true_eq] at hexp
          rw [StringMap.get_erase_self, if_pos ⟨rfl, htoken⟩, hs, alive_some, if_neg (by omega)]
          rfl
        · next hexp =>
          simp only [expired, decide_eq_true_eq] at hexp
          rw [StringMap.get_insert_self, if_pos ⟨rfl, htoken⟩, hs, alive_some, if_pos (by omega)]
          rfl
      · have hother : ¬(t = token ∧ token ≠ "") := fun h => ht h.1
        rw [if_neg hother]
        split
        · exact StringMap.get_erase_of_ne _ ht
        · exact StringMap.get_insert_of_ne _ ht _

theorem sessions_drop (st : SessionStore) (token t : String) :
    (st.drop token).sessions[t]? = if t = token then none else st.sessions[t]? :=
  StringMap.get_erase st.sessions token t

@[simp] theorem token_createSession (st : SessionStore) (rawToken rawCsrf : RandomBytes)
    (purgeNow now : Int) :
    (st.createSession rawToken rawCsrf purgeNow now).2.1 = randomToken rawToken := rfl

@[simp] theorem ttl_createSession (st : SessionStore) (rawToken rawCsrf : RandomBytes)
    (purgeNow now : Int) : (st.createSession rawToken rawCsrf purgeNow now).1.ttl = st.ttl := rfl

@[simp] theorem ttl_validate (st : SessionStore) (now : Int) (token : String) :
    (st.validate now token).1.ttl = st.ttl := by
  unfold validate
  split
  · rfl
  · split
    · rfl
    · split <;> rfl

@[simp] theorem ttl_drop (st : SessionStore) (token : String) : (st.drop token).ttl = st.ttl := rfl

/-! ### Runs of the store, and the ideal table -/

/-- One call of the store, with the clock readings it makes (`drop` and `csrfFor`
make none; theirs is when they are called). -/
inductive Call
  | createSession (rawToken rawCsrf : RandomBytes) (purgeNow now : Int)
  | validate (token : String) (now : Int)
  | csrfFor (token : String) (now : Int)
  | drop (token : String) (now : Int)

namespace Call

/-- The first clock reading. -/
def start : Call → Int
  | createSession _ _ purgeNow _ => purgeNow
  | validate _ now | csrfFor _ now | drop _ now => now

/-- The last clock reading. -/
def stop : Call → Int
  | createSession _ _ _ now => now
  | validate _ now | csrfFor _ now | drop _ now => now

/-- The token a call is about. -/
def token : Call → String
  | createSession rawToken _ _ _ => randomToken rawToken
  | validate t _ | csrfFor t _ | drop t _ => t

/-- The token `createSession` returns as that of the new session; it does not depend on the
store (`token_createSession`). -/
def created : Call → Option String
  | createSession rawToken rawCsrf purgeNow now =>
    some (SessionStore.createSession {} rawToken rawCsrf purgeNow now).2.1
  | _ => none

/-- The token a call drops. -/
def dropped : Call → Option String
  | drop t _ => some t
  | _ => none

end Call

/-- What a call returns; what `csrfFor` returns is looked at elsewhere. -/
inductive Answer
  /-- `createSession` returns the token and the CSRF token. -/
  | created (token csrf : String)
  | validated (accepted : Bool)
  | done
  deriving Repr, DecidableEq

/-- The store as a machine. -/
def machine : Machine SessionStore Call Answer where
  step st
    | .createSession rawToken rawCsrf purgeNow now =>
      let r := st.createSession rawToken rawCsrf purgeNow now
      (r.1, .created r.2.1 r.2.2)
    | .validate token now => ((st.validate now token).1, .validated (st.validate now token).2)
    | .csrfFor _ _ => (st, .done)
    | .drop token _ => (st.drop token, .done)

/-- The ideal table: every session that was created and not dropped, with the time of
its last refresh. -/
abbrev Table := String → Option Session

/-- **Sliding expiry**: a session is live for `ttl` seconds after each refresh. Nothing
is ever purged. -/
def ideal (ttl : Int) : Machine Table Call Answer where
  step T
    | .createSession rawToken rawCsrf _ now =>
      (Function.update T (randomToken rawToken)
        (some { csrf := randomToken rawCsrf, lastSeen := now }),
        .created (randomToken rawToken) (randomToken rawCsrf))
    | .validate token now =>
      match alive ttl now (T token) with
      | some s => (Function.update T token (some { s with lastSeen := now }), .validated true)
      | none => (T, .validated false)
    | .csrfFor _ _ => (T, .done)
    | .drop token _ => (Function.update T token none, .done)

section Ideal

variable (ttl : Int) (T : Table) (t : String)

theorem ideal_next_createSession (rawToken rawCsrf : RandomBytes) (purgeNow now : Int) :
    (ideal ttl).next T (.createSession rawToken rawCsrf purgeNow now) t =
      if t = randomToken rawToken then some { csrf := randomToken rawCsrf, lastSeen := now }
      else T t :=
  Function.update_apply T _ _ t

theorem ideal_next_drop (token : String) (now : Int) :
    (ideal ttl).next T (.drop token now) t = if t = token then none else T t :=
  Function.update_apply T _ _ t

theorem ideal_next_validate (token : String) (now : Int) :
    (ideal ttl).next T (.validate token now) t =
      if t = token ∧ (alive ttl now (T token)).isSome then
        (T t).map fun s => { s with lastSeen := now }
      else T t := by
  simp only [next, ideal]
  cases halive : alive ttl now (T token) with
  | none => simp
  | some s =>
    have hs : T token = some s := (Option.filter_eq_some_iff.mp halive).1
    by_cases ht : t = token
    · simp [ht, hs]
    · simp [ht, Function.update_of_ne]

theorem ideal_out_validate (token : String) (now : Int) :
    (ideal ttl).out T (.validate token now) = .validated (alive ttl now (T token)).isSome := by
  simp only [out, ideal]
  split
  · next hs => rw [hs]; rfl
  · next hs => rw [hs]; rfl

end Ideal

/-! ### The refinement -/

/-- The store agrees with the table on every session that is live at the last clock
reading. -/
structure Agrees (ttl clock : Int) (st : SessionStore) (T : Table) : Prop where
  ttl_eq : st.ttl = ttl
  no_empty : T "" = none
  alive_eq : ∀ t, alive ttl clock st.sessions[t]? = alive ttl clock (T t)

theorem Agrees.empty (ttl clock : Int) : Agrees ttl clock { ttl := ttl } fun _ => none where
  ttl_eq := rfl
  no_empty := rfl
  alive_eq t := by simp

/-- The store answers as the table does. -/
theorem Agrees.validate_snd {ttl clock now : Int} {st : SessionStore} {T : Table}
    (h : Agrees ttl clock st T) (hnow : clock ≤ now) (token : String) :
    (st.validate now token).2 = (alive ttl now (T token)).isSome := by
  rw [SessionStore.validate_snd, h.ttl_eq, alive_congr hnow (h.alive_eq token)]
  by_cases htoken : token = ""
  · simp [htoken, h.no_empty]
  · simp [htoken]

/-- One call keeps the agreement and is answered alike. -/
theorem Agrees.step {ttl clock : Int} {st : SessionStore} {T : Table} (h : Agrees ttl clock st T)
    (c : Call) (hstart : clock ≤ c.start) (hstop : c.start ≤ c.stop) :
    Agrees ttl c.stop (machine.next st c) ((ideal ttl).next T c) ∧
      machine.out st c = (ideal ttl).out T c := by
  cases c with
  | createSession rawToken rawCsrf purgeNow now =>
    refine ⟨⟨h.ttl_eq, ?_, ?_⟩, rfl⟩
    · rw [ideal_next_createSession, if_neg (randomToken_ne_empty rawToken).symm, h.no_empty]
    · intro t
      rw [ideal_next_createSession]
      simp only [next, machine, Call.stop, sessions_createSession]
      split
      · rfl
      -- The store purged at the first reading; what went then is out at the second one, too.
      · rw [h.ttl_eq, alive_alive (t := purgeNow) (u := now) ttl hstop]
        exact alive_congr (hstart.trans hstop) (h.alive_eq t)
  | validate token now =>
    -- The answer depends on what is alive now, and there the two agree.
    have hnow : ∀ t, alive ttl now st.sessions[t]? = alive ttl now (T t) :=
      fun t => alive_congr hstart (h.alive_eq t)
    refine ⟨⟨?_, ?_, ?_⟩, ?_⟩
    · simp [next, machine, h.ttl_eq]
    · simp [ideal_next_validate, h.no_empty]
    · intro t
      rw [ideal_next_validate]
      simp only [next, machine, Call.stop, sessions_validate, h.ttl_eq]
      by_cases ht : t = token
      · -- The entry asked about: refreshed in both, or out of both.
        subst ht
        have ht := hnow t
        cases hT : alive ttl now (T t) with
        | none =>
          rw [hT] at ht
          simp only [ht, Option.map_none, Option.isSome_none, Bool.false_eq_true, and_false, if_false]
          split
          · exact hT.symm
          · exact ht.trans hT.symm
        | some s =>
          have hs : T t = some s := (Option.filter_eq_some_iff.mp hT).1
          have htoken : t ≠ "" := fun he => by simp [he, h.no_empty] at hs
          rw [hT] at ht
          simp [ht, hs, htoken]
      · simpa [ht] using hnow t
    · rw [ideal_out_validate]
      exact congrArg Answer.validated (h.validate_snd hstart token)
  | csrfFor token now =>
    exact ⟨⟨h.ttl_eq, h.no_empty, fun t => alive_congr hstart (h.alive_eq t)⟩, rfl⟩
  | drop token now =>
    refine ⟨⟨h.ttl_eq, ?_, ?_⟩, rfl⟩
    · rw [ideal_next_drop, h.no_empty, ite_self]
    · intro t
      rw [ideal_next_drop]
      simp only [next, machine, Call.stop, sessions_drop]
      split
      · rfl
      · exact alive_congr hstart (h.alive_eq t)

/-- Runs keep the agreement, and every call on the way is answered as the table answers it. -/
theorem Agrees.run {ttl clock : Int} {st : SessionStore} {T : Table} (h : Agrees ttl clock st T)
    {calls : List Call} (horder : InOrder Call.start Call.stop clock calls) :
    Agrees ttl (lastReading Call.stop clock calls) (machine.run st calls)
        ((ideal ttl).run T calls) ∧
      machine.outputs st calls = (ideal ttl).outputs T calls :=
  simulation_clocked (R := Agrees ttl) (fun _ _ _ c hR hstart hstop => hR.step c hstart hstop)
    h horder

end SessionStore

end TiBackup
