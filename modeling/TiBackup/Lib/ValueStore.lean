import Mathlib.Data.List.Nodup
import Mathlib.Tactic.Common

/-!
# TiBackup.Lib.ValueStore

**A store of values that are set one at a time**, such as the keys of a configuration.
Several values are set from a table that says for every key what an update has for it, if
anything. Which values the store then has depends on the table alone (`get_update`), so
updates that have no key in common commute (`get_update_comm`).
-/

namespace TiBackup.Lib

/-- Values by key; a value that was set is read back. -/
structure ValueStore (σ κ ν : Type) [DecidableEq κ] where
  get : σ → κ → ν
  set : σ → κ → ν → σ
  get_set : ∀ s k v k', get (set s k v) k' = if k' = k then v else get s k'

namespace ValueStore

variable {σ κ ν β : Type} [DecidableEq κ] (S : ValueStore σ κ ν)

/-- Set a value if there is one. -/
def setIf (s : σ) (k : κ) : Option ν → σ
  | some v => S.set s k v
  | none => s

theorem get_setIf (s : σ) (k : κ) (v : Option ν) (k' : κ) :
    S.get (S.setIf s k v) k' = if k' = k then v.getD (S.get s k) else S.get s k' := by
  cases v with
  | some v => exact S.get_set s k v k'
  | none =>
    rw [setIf, Option.getD_none]
    split
    · next hk => rw [hk]
    · rfl

/-- Set, one after the other, the values that an update has for the keys of a table. -/
def update (table : List (κ × (β → Option ν))) (b : β) (s : σ) : σ :=
  table.foldl (fun s f => S.setIf s f.1 (f.2 b)) s

/-- What an update has for a key. -/
def written (table : List (κ × (β → Option ν))) (b : β) (k : κ) : Option ν :=
  (table.lookup k).bind fun value => value b

@[simp] theorem update_cons (f : κ × (β → Option ν)) (table : List (κ × (β → Option ν))) (b : β)
    (s : σ) : S.update (f :: table) b s = S.update table b (S.setIf s f.1 (f.2 b)) := rfl

theorem written_cons (f : κ × (β → Option ν)) (table : List (κ × (β → Option ν))) (b : β) (k : κ) :
    written (f :: table) b k = if k = f.1 then f.2 b else written table b k := by
  rw [written, List.lookup_cons]
  by_cases h : k = f.1
  · rw [beq_iff_eq.mpr h, if_pos h]
    rfl
  · rw [beq_false_of_ne h, if_neg h]
    rfl

/-- Nothing is written to a key that the table does not have. -/
theorem written_of_not_mem {table : List (κ × (β → Option ν))} {k : κ}
    (h : k ∉ table.map Prod.fst) (b : β) : written table b k = none := by
  induction table with
  | nil => rfl
  | cons f table ih =>
    rw [List.map_cons, List.mem_cons, not_or] at h
    rw [written_cons, if_neg h.1, ih h.2]

/-- What an update has for a key of the table. -/
theorem written_of_mem {table : List (κ × (β → Option ν))} (h : (table.map Prod.fst).Nodup)
    {f : κ × (β → Option ν)} (hf : f ∈ table) (b : β) : written table b f.1 = f.2 b := by
  induction table with
  | nil => cases hf
  | cons g table ih =>
    obtain ⟨hnew, hrest⟩ := List.nodup_cons.mp h
    rw [written_cons]
    rcases List.mem_cons.mp hf with rfl | hmem
    · exact if_pos rfl
    · have hne : f.1 ≠ g.1 := fun heq => hnew (heq ▸ List.mem_map_of_mem hmem)
      rw [if_neg hne, ih hrest hmem]

/-- **The values after an update.** -/
theorem get_update {table : List (κ × (β → Option ν))} (h : (table.map Prod.fst).Nodup) (b : β)
    (s : σ) (k : κ) : S.get (S.update table b s) k = (written table b k).getD (S.get s k) := by
  induction table generalizing s with
  | nil => rfl
  | cons f table ih =>
    obtain ⟨hnew, hrest⟩ := List.nodup_cons.mp h
    rw [update_cons, ih hrest, get_setIf, written_cons]
    by_cases hk : k = f.1
    · rw [if_pos hk, if_pos hk, hk, written_of_not_mem hnew, Option.getD_none]
    · rw [if_neg hk, if_neg hk]

/-- Two updates have no key in common. -/
def DisjointOn (table : List (κ × (β → Option ν))) (b c : β) : Prop :=
  ∀ f ∈ table, f.2 b = none ∨ f.2 c = none

theorem DisjointOn.written {table : List (κ × (β → Option ν))} {b c : β}
    (h : DisjointOn table b c) (k : κ) : written table b k = none ∨ written table c k = none := by
  induction table with
  | nil => exact .inl rfl
  | cons f table ih =>
    rw [written_cons, written_cons]
    split
    · exact h f List.mem_cons_self
    · exact ih fun g hg => h g (List.mem_cons_of_mem f hg)

/-- **Disjoint updates commute.** -/
theorem get_update_comm {table : List (κ × (β → Option ν))} (hnodup : (table.map Prod.fst).Nodup)
    {b c : β} (h : DisjointOn table b c) (s : σ) (k : κ) :
    S.get (S.update table b (S.update table c s)) k =
      S.get (S.update table c (S.update table b s)) k := by
  rw [S.get_update hnodup, S.get_update hnodup, S.get_update hnodup, S.get_update hnodup]
  rcases h.written k with hb | hc
  · rw [hb, Option.getD_none, Option.getD_none]
  · rw [hc, Option.getD_none, Option.getD_none]

end ValueStore

end TiBackup.Lib
