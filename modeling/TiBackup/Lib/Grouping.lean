import TiBackup.Lib.StringMap
import Mathlib.Data.List.Perm.Basic

/-!
# TiBackup.Lib.Grouping

**Entries grouped by a key.** A map from keys to lists is filled entry by entry and then
listed, the groups in the order of their keys and every group in an order of its own. Some
keys may be reserved: collecting stops at the first entry that has one of them.

Without reserved keys the groups are a partition of the entries (`groups_cases`).
-/

namespace TiBackup.Lib

section Grouping

variable {α : Type} {reserved : List String} {key : α → String}

/-! ### Fibres -/

/-- The entries of every key, for keys that cover them all, are the entries again. -/
theorem flatMap_filter_perm {ks : List String} {xs : List α} (hnodup : ks.Nodup)
    (hcover : ∀ x ∈ xs, key x ∈ ks) :
    (ks.flatMap fun k => xs.filter fun x => key x = k).Perm xs := by
  induction ks generalizing xs with
  | nil =>
    have hempty : xs = [] := List.eq_nil_iff_forall_not_mem.mpr fun x hx =>
      List.not_mem_nil (hcover x hx)
    rw [hempty]
    simp
  | cons k ks ih =>
    obtain ⟨hnew, hks⟩ := List.nodup_cons.mp hnodup
    have hrest : ∀ x ∈ xs.filter fun x => !decide (key x = k), key x ∈ ks := by
      intro x hx
      obtain ⟨hmem, hne⟩ := List.mem_filter.mp hx
      exact (List.mem_cons.mp (hcover x hmem)).resolve_left (by simpa using hne)
    have hfibres : (ks.flatMap fun l => xs.filter fun x => key x = l) =
        ks.flatMap fun l => (xs.filter fun x => !decide (key x = k)).filter fun x => key x = l := by
      refine List.flatMap_congr ?_
      intro l hl
      have hlk : l ≠ k := fun h => hnew (h ▸ hl)
      rw [List.filter_filter]
      refine List.filter_congr ?_
      intro x _
      by_cases hx : key x = l
      · simp [hx, hlk]
      · simp [hx]
    rw [List.flatMap_cons, hfibres]
    exact ((ih hks hrest).append_left _).trans (List.filter_append_perm _ xs)

/-! ### Collecting -/

variable (reserved key) in
/-- One more entry under its key. Nothing can be collected under a reserved one. -/
def collect (m : StringMap (List α)) (x : α) : Option (StringMap (List α)) :=
  if key x ∈ reserved then none else some (m.insert (key x) (m[key x]?.getD [] ++ [x]))

variable (key) in
/-- What the map holds after some entries: under each key the entries of this key, and
nothing under any other one. -/
def Collected (xs : List α) (m : StringMap (List α)) : Prop :=
  ∀ k, m[k]? = if k ∈ xs.map key then some (xs.filter fun x => key x = k) else none

theorem collected_nil : Collected key [] ∅ := by
  intro k
  rw [List.map_nil, if_neg List.not_mem_nil]
  exact Std.ExtTreeMap.getElem?_empty

theorem Collected.step {xs : List α} {m m' : StringMap (List α)} {x : α}
    (h : Collected key xs m) (hcollect : collect reserved key m x = some m') :
    Collected key (xs ++ [x]) m' := by
  rw [collect] at hcollect
  split at hcollect
  · cases hcollect
  · obtain rfl := Option.some.inj hcollect
    intro k
    rw [StringMap.get_insert, List.filter_append]
    by_cases hk : k = key x
    · subst hk
      rw [if_pos rfl, if_pos (by simp), h (key x), List.filter_cons_of_pos (by simp),
        List.filter_nil]
      split
      · rfl
      · next hnew =>
        have hempty : (xs.filter fun y => key y = key x) = [] := by
          refine List.filter_eq_nil_iff.mpr ?_
          intro y hy hsame
          exact hnew (List.mem_map.mpr ⟨y, hy, by simpa using hsame⟩)
        rw [hempty]
        rfl
    · rw [if_neg hk, h k, List.filter_cons_of_neg (by simpa using Ne.symm hk), List.filter_nil,
        List.append_nil]
      simp [hk]

/-- The whole list, entry by entry: it stops at the first reserved key. -/
theorem foldlM_collect {xs before : List α} {m : StringMap (List α)}
    (h : Collected key before m) :
    (∃ x ∈ xs, key x ∈ reserved) ∧ xs.foldlM (collect reserved key) m = none ∨
      (∀ x ∈ xs, key x ∉ reserved) ∧
        ∃ m', xs.foldlM (collect reserved key) m = some m' ∧ Collected key (before ++ xs) m' := by
  induction xs generalizing m before with
  | nil =>
    right
    exact ⟨fun x hx => absurd hx List.not_mem_nil, m, rfl, by rwa [List.append_nil]⟩
  | cons x xs ih =>
    rw [List.foldlM_cons]
    by_cases hstop : key x ∈ reserved
    · left
      exact ⟨⟨x, List.mem_cons_self, hstop⟩, by rw [collect, if_pos hstop]; rfl⟩
    · have hcollect : collect reserved key m x =
          some (m.insert (key x) (m[key x]?.getD [] ++ [x])) := by
        rw [collect, if_neg hstop]
      rw [hcollect]
      rcases ih (h.step hcollect) with ⟨⟨y, hy, hreserved⟩, hnone⟩ | ⟨hall, m', hm', hcollected⟩
      · exact .inl ⟨⟨y, List.mem_cons_of_mem _ hy, hreserved⟩, hnone⟩
      · refine .inr ⟨?_, m', hm', by simpa using hcollected⟩
        intro y hy
        rcases List.mem_cons.mp hy with rfl | hy
        · exact hstop
        · exact hall y hy

/-- A pair of the map is a key with its entries, of which there is at least one. -/
theorem Collected.of_mem {xs : List α} {m : StringMap (List α)} (h : Collected key xs m)
    {p : String × List α} (hp : p ∈ m.toList) :
    p.2 = (xs.filter fun x => key x = p.1) ∧ p.1 ∈ xs.map key := by
  have hget := Std.ExtTreeMap.mem_toList_iff_getElem?_eq_some.mp hp
  rw [h p.1] at hget
  split at hget
  · next hmem => exact ⟨(Option.some.inj hget).symm, hmem⟩
  · cases hget

/-- The map holds every entry once. -/
theorem Collected.flatMap_perm {xs : List α} {m : StringMap (List α)} (h : Collected key xs m) :
    (m.toList.flatMap Prod.snd).Perm xs := by
  have hfibres : m.toList.flatMap Prod.snd =
      (m.toList.map Prod.fst).flatMap fun k => xs.filter fun x => key x = k := by
    rw [List.flatMap_map]
    exact List.flatMap_congr fun p hp => (h.of_mem hp).1
  rw [hfibres]
  refine flatMap_filter_perm (StringMap.nodup_keys m) ?_
  intro x hx
  refine List.mem_map.mpr ⟨(key x, xs.filter fun y => key y = key x), ?_, rfl⟩
  rw [Std.ExtTreeMap.mem_toList_iff_getElem?_eq_some, h (key x), if_pos (List.mem_map_of_mem hx)]

/-! ### Listing -/

variable (reserved key) in
/-- The groups in the order of their keys, each in the order of its entries. -/
def groups (keyLe : String → String → Bool) (le : α → α → Bool) (xs : List α) :
    Option (List (String × List α)) :=
  (xs.foldlM (collect reserved key) ∅).map fun m =>
    (m.toList.mergeSort fun p q => keyLe p.1 q.1).map fun p => (p.1, p.2.mergeSort le)

variable (key) in
/-- The groups are a partition of the entries by their keys, listed in order. -/
structure IsGrouping (keyLe : String → String → Bool) (le : α → α → Bool) (xs : List α)
    (gs : List (String × List α)) : Prop where
  distinct : (gs.map Prod.fst).Nodup
  sorted : (gs.map Prod.fst).Pairwise fun k l => keyLe k l
  once : (gs.flatMap Prod.snd).Perm xs
  own : ∀ g ∈ gs, ∀ x ∈ g.2, key x = g.1
  nonempty : ∀ g ∈ gs, g.2 ≠ []
  ordered : ∀ g ∈ gs, g.2.Pairwise fun x y => le x y

variable {keyLe : String → String → Bool} {le : α → α → Bool}

/-- Two total orders, of the keys and of the entries. -/
structure TotalOrders (keyLe : String → String → Bool) (le : α → α → Bool) : Prop where
  keyTrans : ∀ a b c, keyLe a b → keyLe b c → keyLe a c
  keyTotal : ∀ a b, keyLe a b || keyLe b a
  trans : ∀ a b c, le a b → le b c → le a c
  total : ∀ a b, le a b || le b a

/-- What was collected is listed as a partition. -/
theorem Collected.isGrouping (horder : TotalOrders keyLe le) {xs : List α}
    {m : StringMap (List α)} (h : Collected key xs m) :
    IsGrouping key keyLe le xs
      ((m.toList.mergeSort fun p q => keyLe p.1 q.1).map fun p => (p.1, p.2.mergeSort le)) := by
  have hperm := List.mergeSort_perm m.toList fun p q => keyLe p.1 q.1
  have hkeys : ∀ l : List (String × List α),
      (l.map fun p => (p.1, p.2.mergeSort le)).map Prod.fst = l.map Prod.fst := by
    intro l
    simp
  have hgroup : ∀ g ∈ (m.toList.mergeSort fun p q => keyLe p.1 q.1).map
      (fun p => (p.1, p.2.mergeSort le)), ∃ p ∈ m.toList, g = (p.1, p.2.mergeSort le) := by
    intro g hg
    obtain ⟨p, hp, rfl⟩ := List.mem_map.mp hg
    exact ⟨p, List.mem_mergeSort.mp hp, rfl⟩
  constructor
  case distinct =>
    rw [hkeys]
    exact (hperm.map Prod.fst).nodup_iff.mpr (StringMap.nodup_keys m)
  case sorted =>
    rw [hkeys, List.pairwise_map]
    exact List.pairwise_mergeSort (fun a b c => horder.keyTrans a.1 b.1 c.1)
      (fun a b => horder.keyTotal a.1 b.1) m.toList
  case once =>
    rw [List.flatMap_map]
    refine ((List.Perm.refl _).flatMap ?_).trans ((hperm.flatMap_right _).trans h.flatMap_perm)
    intro p _
    exact List.mergeSort_perm p.2 le
  case own =>
    intro g hg x hx
    obtain ⟨p, hp, rfl⟩ := hgroup g hg
    have hmem : x ∈ p.2 := List.mem_mergeSort.mp hx
    rw [(h.of_mem hp).1, List.mem_filter] at hmem
    simpa using hmem.2
  case nonempty =>
    intro g hg hnil
    obtain ⟨p, hp, rfl⟩ := hgroup g hg
    obtain ⟨hentries, hmem⟩ := h.of_mem hp
    obtain ⟨x, hx, hkey⟩ := List.mem_map.mp hmem
    have hin : x ∈ p.2.mergeSort le := by
      rw [List.mem_mergeSort, hentries]
      exact List.mem_filter.mpr ⟨hx, by simpa using hkey⟩
    exact List.ne_nil_of_mem hin hnil
  case ordered =>
    intro g hg
    obtain ⟨p, -, rfl⟩ := hgroup g hg
    exact List.pairwise_mergeSort horder.trans horder.total p.2

/-- **Grouping is a partition**, unless an entry has a reserved key. -/
theorem groups_cases (horder : TotalOrders keyLe le) (xs : List α) :
    (∃ x ∈ xs, key x ∈ reserved) ∧ groups reserved key keyLe le xs = none ∨
      (∀ x ∈ xs, key x ∉ reserved) ∧
        ∃ gs, groups reserved key keyLe le xs = some gs ∧ IsGrouping key keyLe le xs gs := by
  have hfold : (∃ x ∈ xs, key x ∈ reserved) ∧ xs.foldlM (collect reserved key) ∅ = none ∨
      (∀ x ∈ xs, key x ∉ reserved) ∧ ∃ m, xs.foldlM (collect reserved key) ∅ = some m ∧
        Collected key ([] ++ xs) m := foldlM_collect collected_nil
  rcases hfold with ⟨hstop, hnone⟩ | ⟨hall, m, hm, hcollected⟩
  · exact .inl ⟨hstop, by rw [groups, hnone, Option.map_none]⟩
  · rw [List.nil_append] at hcollected
    exact .inr ⟨hall, _, by rw [groups, hm, Option.map_some], hcollected.isGrouping horder⟩

end Grouping

end TiBackup.Lib
