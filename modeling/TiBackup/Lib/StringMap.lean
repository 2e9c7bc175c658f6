import Mathlib.Data.List.Nodup
import Mathlib.Tactic.Common

/-!
# TiBackup.Lib.StringMap

**Maps keyed by strings**, as `Std.ExtTreeMap`: one value per key, enumerated in
ascending key order, and two maps with the same lookups are equal. The standard
library states its lookup lemmas through `compare`; here they are stated through
equality of keys, which is the form every later proof rewrites with.
-/

namespace TiBackup.Lib

/-- A map from strings, enumerated in ascending key order. -/
abbrev StringMap (ν : Type) := Std.ExtTreeMap String ν compare

namespace StringMap

variable {ν : Type}

theorem get_insert (m : StringMap ν) (k a : String) (v : ν) :
    (m.insert k v)[a]? = if a = k then some v else m[a]? := by
  simp only [Std.ExtTreeMap.getElem?_insert, Std.LawfulEqCmp.compare_eq_iff_eq, @eq_comm _ k a]

@[simp] theorem get_insert_self (m : StringMap ν) (k : String) (v : ν) :
    (m.insert k v)[k]? = some v := by
  rw [get_insert, if_pos rfl]

theorem get_insert_of_ne (m : StringMap ν) {k a : String} (h : a ≠ k) (v : ν) :
    (m.insert k v)[a]? = m[a]? := by
  rw [get_insert, if_neg h]

theorem get_erase (m : StringMap ν) (k a : String) :
    (m.erase k)[a]? = if a = k then none else m[a]? := by
  simp only [Std.ExtTreeMap.getElem?_erase, Std.LawfulEqCmp.compare_eq_iff_eq, @eq_comm _ k a]

@[simp] theorem get_erase_self (m : StringMap ν) (k : String) : (m.erase k)[k]? = none := by
  rw [get_erase, if_pos rfl]

theorem get_erase_of_ne (m : StringMap ν) {k a : String} (h : a ≠ k) :
    (m.erase k)[a]? = m[a]? := by
  rw [get_erase, if_neg h]

theorem get_filter (m : StringMap ν) (p : ν → Bool) (a : String) :
    (m.filter fun _ v => p v)[a]? = m[a]?.filter p := by
  simp [Std.ExtTreeMap.getElem?_filter]

/-- Build a map by inserting pairs one after another; a later pair replaces an
earlier one with the same key. -/
def ofPairs (ps : List (String × ν)) : StringMap ν :=
  ps.foldl (fun m p => m.insert p.1 p.2) ∅

theorem ofPairs_eq_ofList (ps : List (String × ν)) : ofPairs ps = Std.ExtTreeMap.ofList ps compare :=
  Std.ExtTreeMap.ofList_eq_foldl.symm

/-- Inserting the pairs of a map again rebuilds it. -/
theorem ofPairs_toList (m : StringMap ν) : ofPairs m.toList = m := by
  rw [ofPairs_eq_ofList]
  refine Std.ExtTreeMap.ext_getElem? ?_
  intro k
  cases hk : m[k]? with
  | some v =>
    refine Std.ExtTreeMap.getElem?_ofList_of_mem (k := k) (by simp)
      Std.ExtTreeMap.distinct_keys_toList ?_
    exact Std.ExtTreeMap.mem_toList_iff_getElem?_eq_some.mpr hk
  | none =>
    refine Std.ExtTreeMap.getElem?_ofList_of_contains_eq_false ?_
    rw [Std.ExtTreeMap.map_fst_toList_eq_keys, Std.ExtTreeMap.contains_keys]
    rw [Std.ExtTreeMap.contains_eq_isSome_getElem?, hk]
    rfl

/-- A map enumerates every key once. -/
theorem nodup_keys (m : StringMap ν) : (m.toList.map Prod.fst).Nodup := by
  refine List.pairwise_map.mpr (Std.ExtTreeMap.distinct_keys_toList.imp ?_)
  intro a b hne heq
  exact hne (Std.LawfulEqCmp.compare_eq_iff_eq.mpr heq)

theorem get_of_not_mem_keys {m : StringMap ν} {k : String} (h : k ∉ m.toList.map Prod.fst) :
    m[k]? = none := by
  cases hget : m[k]? with
  | none => rfl
  | some v =>
    have hmem := Std.ExtTreeMap.mem_toList_iff_getElem?_eq_some.mpr hget
    exact absurd (List.mem_map_of_mem hmem) h

/-- Pairs with distinct keys are all found in the map, and no others. -/
theorem get_ofPairs {ps : List (String × ν)} (h : (ps.map Prod.fst).Nodup) (k : String) (v : ν) :
    (ofPairs ps)[k]? = some v ↔ (k, v) ∈ ps := by
  have hdistinct : ps.Pairwise fun a b => ¬ compare a.1 b.1 = .eq := by
    refine (List.pairwise_map.mp h).imp ?_
    intro a b hne heq
    exact hne (Std.LawfulEqCmp.compare_eq_iff_eq.mp heq)
  have hfind : ∀ {w}, (k, w) ∈ ps → (ofPairs ps)[k]? = some w := by
    intro w hw
    rw [ofPairs_eq_ofList]
    exact Std.ExtTreeMap.getElem?_ofList_of_mem (by simp) hdistinct hw
  constructor
  · intro hget
    by_cases hkey : k ∈ ps.map Prod.fst
    · obtain ⟨⟨k', w⟩, hmem, rfl⟩ := List.mem_map.mp hkey
      obtain rfl := Option.some.inj ((hfind hmem).symm.trans hget)
      exact hmem
    · have hnone : (ofPairs ps)[k]? = none := by
        rw [ofPairs_eq_ofList]
        exact Std.ExtTreeMap.getElem?_ofList_of_contains_eq_false (by simpa using hkey)
      rw [hnone] at hget
      cases hget
  · exact hfind

/-- **Which pairs survive.** A map built from pairs enumerates all of them exactly when
their keys are distinct. -/
theorem toList_ofPairs_perm_iff {ps : List (String × ν)} :
    (ofPairs ps).toList.Perm ps ↔ (ps.map Prod.fst).Nodup := by
  constructor
  · intro hperm
    exact (hperm.map Prod.fst).nodup_iff.mp (nodup_keys _)
  · intro hnodup
    refine (List.perm_ext_iff_of_nodup (List.Nodup.of_map Prod.fst (nodup_keys _))
      (List.Nodup.of_map Prod.fst hnodup)).mpr ?_
    intro p
    obtain ⟨k, v⟩ := p
    rw [Std.ExtTreeMap.mem_toList_iff_getElem?_eq_some, get_ofPairs hnodup]

end StringMap

end TiBackup.Lib
