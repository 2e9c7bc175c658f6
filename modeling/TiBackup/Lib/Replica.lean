import Mathlib.Data.List.Basic
import Mathlib.Tactic.Common

/-!
# TiBackup.Lib.Replica

**A table that follows a source by messages.** Somebody shows a table of values that
change somewhere else. Each change is announced by a message, and the messages arrive in
order; now and then the whole table is replaced by a listing of the source.

What the table says about a key once the messages under way have arrived is what the last of
them says, and the value it has now if there is none (`final`). A table is *current* if
that is the value of the source for every key it shows (`Current`). Announced changes and
arriving messages keep a table current, and a listing that was made some time ago can replace
it, if no message sent after it was made has arrived yet (`current_of_listing`).
-/

namespace TiBackup.Lib

namespace Replica

variable {κ υ : Type*} [DecidableEq κ]

/-- What the last message about a key says. -/
def last (ms : List (κ × υ)) (k : κ) : Option υ := ms.reverse.lookup k

/-- The value of a key after the messages. -/
def final (ms : List (κ × υ)) (k : κ) (v : υ) : υ := (last ms k).getD v

/-- The first entry for the key gets a new value. -/
def assign (k : κ) (v : υ) : List (κ × υ) → List (κ × υ)
  | [] => []
  | e :: table => if e.1 = k then (e.1, v) :: table else e :: assign k v table

variable {source source' : κ → υ} {ms ns table : List (κ × υ)} {k : κ} {v : υ}

theorem lookup_append (xs ys : List (κ × υ)) (k : κ) :
    (xs ++ ys).lookup k = (xs.lookup k).or (ys.lookup k) := by
  induction xs with
  | nil => rfl
  | cons x xs ih =>
    rw [List.cons_append, List.lookup_cons, List.lookup_cons, ih]
    cases k == x.1 <;> rfl

theorem last_append (ms ns : List (κ × υ)) (k : κ) :
    last (ms ++ ns) k = (last ns k).or (last ms k) := by
  rw [last, List.reverse_append, lookup_append, last, last]

theorem last_cons (m : κ × υ) (ms : List (κ × υ)) (k : κ) :
    last (m :: ms) k = (last ms k).or (if k = m.1 then some m.2 else none) := by
  rw [← List.singleton_append, last_append]
  congr 1
  rw [last, List.reverse_singleton, List.lookup_cons, List.lookup_nil]
  by_cases h : k = m.1
  · simp [h]
  · rw [beq_false_of_ne h, if_neg h]

@[simp] theorem final_nil (k : κ) (v : υ) : final [] k v = v := rfl

theorem final_append (ms ns : List (κ × υ)) (k : κ) (v : υ) :
    final (ms ++ ns) k v = final ns k (final ms k v) := by
  rw [final, final, final, last_append]
  cases last ns k <;> rfl

theorem final_cons (m : κ × υ) (ms : List (κ × υ)) (k : κ) (v : υ) :
    final (m :: ms) k v = final ms k (if k = m.1 then m.2 else v) := by
  rw [final, final, last_cons]
  cases last ms k with
  | some w => rfl
  | none => split <;> rfl

/-- Messages that say the value of each of some keys. -/
theorem last_map (f : κ → υ) (ks : List κ) (k : κ) :
    last (ks.map fun k => (k, f k)) k = if k ∈ ks then some (f k) else none := by
  induction ks with
  | nil => rfl
  | cons k' ks ih =>
    rw [List.map_cons, last_cons, ih]
    by_cases hk : k ∈ ks
    · rw [if_pos hk, if_pos (List.mem_cons_of_mem _ hk), Option.some_or]
    · rw [if_neg hk, Option.none_or]
      by_cases heq : k = k'
      · subst heq
        rw [if_pos rfl, if_pos List.mem_cons_self]
      · rw [if_neg heq, if_neg (by simp [heq, hk])]

/-! ### Tables -/

theorem keys_assign (k : κ) (v : υ) (table : List (κ × υ)) :
    (assign k v table).map Prod.fst = table.map Prod.fst := by
  induction table with
  | nil => rfl
  | cons e table ih =>
    rw [assign]
    split
    · rfl
    · rw [List.map_cons, List.map_cons, ih]

/-- In a table with one entry a key, the entry for the key has the new value. -/
theorem mem_assign (h : (table.map Prod.fst).Nodup) {e : κ × υ} (he : e ∈ assign k v table) :
    if e.1 = k then e.2 = v else e ∈ table := by
  induction table with
  | nil => cases he
  | cons e' table ih =>
    rw [List.map_cons, List.nodup_cons] at h
    rw [assign] at he
    split at he
    · next hk =>
      rcases List.mem_cons.mp he with rfl | he
      · rw [if_pos hk]
      · have hne : e.1 ≠ k := by
          intro heq
          exact h.1 (hk.trans heq.symm ▸ List.mem_map_of_mem he)
        rw [if_neg hne]
        exact List.mem_cons_of_mem _ he
    · next hk =>
      rcases List.mem_cons.mp he with rfl | he
      · rw [if_neg hk]
        exact List.mem_cons_self
      · have hold := ih h.2 he
        split
        · next heq => rwa [if_pos heq] at hold
        · next hne =>
          rw [if_neg hne] at hold
          exact List.mem_cons_of_mem _ hold

/-- Each key is shown once, and with the messages under way it gets its value at the
source. -/
structure Current (source : κ → υ) (ms table : List (κ × υ)) : Prop where
  keys : (table.map Prod.fst).Nodup
  final : ∀ e ∈ table, final ms e.1 e.2 = source e.1

/-- The last message under way about a key says its value at the source. -/
def Announced (source : κ → υ) (ms : List (κ × υ)) : Prop :=
  ∀ k v, last ms k = some v → v = source k

/-- These messages announce the changes of the source. -/
def Announces (source source' : κ → υ) (ns : List (κ × υ)) : Prop :=
  ∀ k, Replica.final ns k (source k) = source' k

theorem announced_nil (source : κ → υ) : Announced source [] := fun k v h => by cases h

theorem Announced.final (h : Announced source ms) (k : κ) :
    Replica.final ms k (source k) = source k := by
  rw [Replica.final]
  cases hlast : last ms k with
  | none => rfl
  | some v => exact h k v hlast

theorem Announced.append (h : Announced source ms) (hns : Announces source source' ns) :
    Announced source' (ms ++ ns) := by
  intro k v hlast
  have hfinal := hns k
  rw [last_append] at hlast
  rw [Replica.final] at hfinal
  cases hn : last ns k with
  | some w =>
    rw [hn] at hlast hfinal
    rw [← hfinal]
    exact (Option.some.inj hlast).symm
  | none =>
    rw [hn] at hlast hfinal
    rw [← hfinal]
    exact h k v hlast

theorem Announced.tail {m : κ × υ} (h : Announced source (m :: ms)) : Announced source ms := by
  intro k v hlast
  refine h k v ?_
  rw [last_cons, hlast, Option.some_or]

/-- A table stays current when changes are announced, -/
theorem Current.append (h : Current source ms table) (hns : Announces source source' ns) :
    Current source' (ms ++ ns) table where
  keys := h.keys
  final e he := by rw [final_append, h.final e he, hns]

/-- and when a message arrives. -/
theorem Current.assign {m : κ × υ} (h : Current source (m :: ms) table) :
    Current source ms (assign m.1 m.2 table) where
  keys := by rw [keys_assign]; exact h.keys
  final e he := by
    have hold := mem_assign h.keys he
    by_cases hk : e.1 = m.1
    · rw [if_pos hk] at hold
      -- The table had an entry for the key, or there would be none now.
      have hmem : e.1 ∈ table.map Prod.fst := by
        rw [← keys_assign m.1 m.2]
        exact List.mem_map_of_mem he
      obtain ⟨e', he', heq⟩ := List.mem_map.mp hmem
      have hfinal := h.final e' he'
      rw [final_cons, heq, if_pos hk] at hfinal
      rw [hold, hfinal]
    · rw [if_neg hk] at hold
      have hfinal := h.final e hold
      rwa [final_cons, if_neg hk] at hfinal

/-- A listing that only the last messages are newer than is current with all of them. -/
theorem current_of_listing (h : Announced source ms) {d : Nat}
    (hlisting : Current source (ms.drop d) table) : Current source ms table where
  keys := hlisting.keys
  final e he := by
    have hfinal := hlisting.final e he
    have hall : Replica.final (ms.take d ++ ms.drop d) e.1 (source e.1) = source e.1 := by
      rw [List.take_append_drop]
      exact h.final e.1
    rw [← List.take_append_drop d ms]
    rw [final_append, Replica.final] at hall ⊢
    rw [Replica.final] at hfinal
    cases hlast : last (ms.drop d) e.1 with
    | some w =>
      rw [hlast] at hfinal
      exact hfinal
    | none =>
      -- No newer message is about the key, so the listing has its value.
      rw [hlast] at hfinal hall
      rw [Option.getD_none] at hfinal hall ⊢
      rw [hfinal, hall]

end Replica

end TiBackup.Lib
