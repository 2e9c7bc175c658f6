import TiBackup.Lib.StringMap
import Mathlib.Data.List.Forall2
import Mathlib.Data.Option.Basic
import Mathlib.Data.List.Sort

/-!
# TiBackup.Lib.KeyedStore

**Keyed stores**: a persistent collection of records, one per key, read one at a
time or listed as a whole. `KeyedStore` is an interface whose laws are fields, so
whatever is proved about a store holds of every implementation that keeps them:

* reading after `save` and after `remove` (the frame of each included);
* `remove` tells whether there was something to remove, and does nothing if not;
* the order in which a store is listed depends on its set of keys alone (a
  directory listing, for instance).

`KeyedStore.ofMap` is the implementation by a map. `Related` lifts a relation on
records to stores, which is how two runs of one program are compared, and `Adds`
says that one record came in and nothing else changed.
-/

namespace TiBackup.Lib

/-- A store of records, each under its own key. -/
structure KeyedStore {κ ρ : Type} [DecidableEq κ] (key : ρ → κ) where
  /-- The contents of a store. -/
  Carrier : Type
  /-- Read one record. -/
  find : Carrier → κ → Option ρ
  /-- The keys in use, in listing order. -/
  index : Carrier → List κ
  /-- Store a record under its key, replacing the one that is there. -/
  save : Carrier → ρ → Carrier
  /-- Remove a record; `false` if there was none. -/
  remove : Carrier → κ → Carrier × Bool
  find_save : ∀ s r k, find (save s r) k = if k = key r then some r else find s k
  find_remove : ∀ s k k', find (remove s k).1 k' = if k' = k then none else find s k'
  remove_snd : ∀ s k, (remove s k).2 = (find s k).isSome
  remove_of_absent : ∀ s k, find s k = none → (remove s k).1 = s
  key_of_find : ∀ {s k r}, find s k = some r → key r = k
  mem_index : ∀ {s k}, k ∈ index s ↔ (find s k).isSome
  nodup_index : ∀ s, (index s).Nodup
  index_congr : ∀ {s t}, (∀ k, (find s k).isSome = (find t k).isSome) → index s = index t

namespace KeyedStore

variable {κ ρ : Type} [DecidableEq κ] {key : ρ → κ} (S : KeyedStore key)

theorem find_save_of_ne {s : S.Carrier} {r : ρ} {k : κ} (h : k ≠ key r) :
    S.find (S.save s r) k = S.find s k := by
  rw [S.find_save, if_neg h]

/-- Saving a record that is already there changes nothing. -/
theorem find_save_stored {s : S.Carrier} {r : ρ} (h : S.find s (key r) = some r) (k : κ) :
    S.find (S.save s r) k = S.find s k := by
  rw [S.find_save]
  split
  · next hk => rw [hk, h]
  · rfl

/-- All records, in listing order. -/
def items (s : S.Carrier) : List ρ := (S.index s).filterMap (S.find s)

variable {S}

/-- A record is listed exactly when it is stored under its key. -/
theorem mem_items {s : S.Carrier} {r : ρ} : r ∈ S.items s ↔ S.find s (key r) = some r := by
  simp only [items, List.mem_filterMap]
  constructor
  · rintro ⟨k, -, hk⟩
    rwa [S.key_of_find hk]
  · intro h
    exact ⟨key r, S.mem_index.mpr (by rw [h]; rfl), h⟩

/-- Listing the keys of the records gives the index back. -/
theorem items_map_key (s : S.Carrier) : (S.items s).map key = S.index s := by
  have hall : ∀ l : List κ, (∀ k ∈ l, (S.find s k).isSome) →
      (l.filterMap (S.find s)).map key = l := by
    intro l hl
    induction l with
    | nil => rfl
    | cons k l ih =>
      obtain ⟨r, hr⟩ := Option.isSome_iff_exists.mp (hl k (by simp))
      rw [List.filterMap_cons_some hr, List.map_cons, S.key_of_find hr,
        ih fun k' hk' => hl k' (by simp [hk'])]
  exact hall _ fun k hk => S.mem_index.mp hk

/-- No two listed records share a key. -/
theorem items_key_nodup (s : S.Carrier) : ((S.items s).map key).Nodup := by
  rw [items_map_key]
  exact S.nodup_index s

/-! ### Related stores -/

/-- The stores hold records under the same keys, related by `R` key by key. -/
def Related (S : KeyedStore key) (R : ρ → ρ → Prop) (s t : S.Carrier) : Prop :=
  ∀ k, Option.Rel R (S.find s k) (S.find t k)

namespace Related

variable {R : ρ → ρ → Prop} {s t : S.Carrier}

/-- A store is related to itself by every reflexive relation. -/
theorem refl (hR : ∀ r, R r r) (s : S.Carrier) : S.Related R s s := by
  intro k
  cases S.find s k with
  | none => exact .none
  | some r => exact .some (hR r)

/-- Under every key there is a record in both stores, or in neither. -/
theorem find_cases (h : S.Related R s t) (k : κ) :
    S.find s k = none ∧ S.find t k = none ∨
      ∃ r r', S.find s k = some r ∧ S.find t k = some r' ∧ R r r' := by
  have hk := h k
  generalize S.find s k = a at hk ⊢
  generalize S.find t k = b at hk ⊢
  cases hk with
  | none => exact .inl ⟨rfl, rfl⟩
  | some hr => exact .inr ⟨_, _, rfl, rfl, hr⟩

theorem isSome_eq (h : S.Related R s t) (k : κ) : (S.find s k).isSome = (S.find t k).isSome := by
  rcases h.find_cases k with ⟨hs, ht⟩ | ⟨r, r', hs, ht, -⟩
  · rw [hs, ht]
  · rw [hs, ht]
    rfl

/-- Related stores are listed in the same order, with related records. -/
theorem items (h : S.Related R s t) : List.Forall₂ R (S.items s) (S.items t) := by
  unfold KeyedStore.items
  rw [← S.index_congr h.isSome_eq]
  generalize S.index s = l
  induction l with
  | nil => exact .nil
  | cons k l ih =>
    rcases h.find_cases k with ⟨hs, ht⟩ | ⟨r, r', hs, ht, hr⟩
    · rwa [List.filterMap_cons_none hs, List.filterMap_cons_none ht]
    · rw [List.filterMap_cons_some hs, List.filterMap_cons_some ht]
      exact .cons hr ih

/-- What is listed of related stores is the same, if it is the same of related records. -/
theorem map_items {β : Type} (h : S.Related R s t) {f : ρ → β} (hf : ∀ r r', R r r' → f r = f r') :
    (S.items s).map f = (S.items t).map f := by
  refine List.forall₂_eq_eq_eq ▸ List.forall₂_map_left_iff.mpr (List.forall₂_map_right_iff.mpr ?_)
  exact h.items.imp hf

theorem save (h : S.Related R s t) {r r' : ρ} (hkey : key r = key r') (hr : R r r') :
    S.Related R (S.save s r) (S.save t r') := by
  intro k
  rw [S.find_save, S.find_save, hkey]
  split
  · exact .some hr
  · exact h k

theorem remove (h : S.Related R s t) (k : κ) :
    S.Related R (S.remove s k).1 (S.remove t k).1 ∧ (S.remove s k).2 = (S.remove t k).2 := by
  constructor
  · intro k'
    rw [S.find_remove, S.find_remove]
    split
    · exact .none
    · exact h k'
  · rw [S.remove_snd, S.remove_snd, h.isSome_eq]

end Related

/-! ### Adding one record -/

/-- `t` is `s` with the record `r` added under a key that was not in use; every
record of `s` is still there, unchanged. -/
def Adds (S : KeyedStore key) (s t : S.Carrier) (r : ρ) : Prop :=
  S.find s (key r) = none ∧ ∀ k, S.find t k = if k = key r then some r else S.find s k

/-- Saving adds a record exactly when its key was free. -/
theorem exists_adds_save_iff {s : S.Carrier} {r : ρ} :
    (∃ r', S.Adds s (S.save s r) r') ↔ S.find s (key r) = none := by
  refine ⟨?_, fun h => ⟨r, h, S.find_save s r⟩⟩
  rintro ⟨r', hfree, hfind⟩
  have hr' := hfind (key r')
  rw [if_pos rfl, S.find_save] at hr'
  split at hr'
  · next hkey => rwa [← hkey]
  · rw [hfree] at hr'
    cases hr'

theorem not_adds_self {s : S.Carrier} {r : ρ} : ¬S.Adds s s r := fun ⟨hfree, hfind⟩ => by
  have hr := hfind (key r)
  rw [hfree, if_pos rfl] at hr
  cases hr

/-! ### The implementation by a map -/

/-- The store of records kept in a map from strings. -/
def ofMap (key : ρ → String) : KeyedStore key where
  Carrier := { m : StringMap ρ // ∀ k r, m[k]? = some r → key r = k }
  find m k := m.1[k]?
  index m := m.1.keys
  save m r := ⟨m.1.insert (key r) r, fun k r' h => by
    rw [StringMap.get_insert] at h
    split at h
    · next hk => rw [hk, Option.some.inj h]
    · exact m.2 k r' h⟩
  remove m k := (⟨m.1.erase k, fun k' r' h => by
    rw [StringMap.get_erase] at h
    split at h
    · cases h
    · exact m.2 k' r' h⟩, m.1[k]?.isSome)
  find_save m r k := StringMap.get_insert m.1 (key r) k r
  find_remove m k k' := StringMap.get_erase m.1 k k'
  remove_snd _ _ := rfl
  remove_of_absent m k h := by
    refine Subtype.ext (Std.ExtTreeMap.ext_getElem? ?_)
    intro k'
    rw [StringMap.get_erase]
    split
    · next hk => rw [hk, h]
    · rfl
  key_of_find h := by
    rename_i m k r
    exact m.2 k r h
  mem_index := by
    intro m k
    rw [Std.ExtTreeMap.mem_keys, Std.ExtTreeMap.mem_iff_isSome_getElem?]
  nodup_index m := Std.ExtTreeMap.nodup_keys
  index_congr := by
    intro s t h
    have hperm : s.1.keys.Perm t.1.keys := by
      refine (List.perm_ext_iff_of_nodup Std.ExtTreeMap.nodup_keys Std.ExtTreeMap.nodup_keys).mpr ?_
      intro k
      rw [Std.ExtTreeMap.mem_keys, Std.ExtTreeMap.mem_keys,
        Std.ExtTreeMap.mem_iff_isSome_getElem?, Std.ExtTreeMap.mem_iff_isSome_getElem?, h k]
    refine hperm.eq_of_pairwise ?_ Std.ExtTreeMap.ordered_keys
      Std.ExtTreeMap.ordered_keys
    intro a b _ _ hab hba
    have hgt := Std.OrientedCmp.gt_of_lt hab
    rw [hba] at hgt
    cases hgt

/-- The empty store. -/
def ofMap.empty (key : ρ → String) : (ofMap key).Carrier :=
  ⟨∅, fun _ _ h => by simp at h⟩

end KeyedStore

end TiBackup.Lib
