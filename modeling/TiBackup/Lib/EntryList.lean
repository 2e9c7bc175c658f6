import Mathlib.Data.List.InsertIdx
import Mathlib.Data.List.Nodup
import Mathlib.Tactic.Common

/-!
# TiBackup.Lib.EntryList

**Lists whose entries keep their identity.** An entry is a number and a value. The number is
given to the entry when it is added and is never used again, so an entry can be followed while
others are added, removed and changed, which a position cannot.

`values` forgets the numbers. What an operation by number does to the values is what an
operation by position does, at the position of the entry.
-/

namespace TiBackup.Lib

/-- Entries with numbers of their own; `fresh` and the numbers behind it are not in use. -/
structure EntryList (α : Type) where
  entries : List (Nat × α)
  fresh : Nat
  nodup : (entries.map Prod.fst).Nodup
  lt_fresh : ∀ e ∈ entries, e.1 < fresh

namespace EntryList

variable {α : Type}

/-- No entries; the numbers before `n` have been used. -/
def emptyAt (n : Nat) : EntryList α := ⟨[], n, List.nodup_nil, nofun⟩

/-- A new entry at the end. -/
def push (l : EntryList α) (x : α) : EntryList α where
  entries := l.entries ++ [(l.fresh, x)]
  fresh := l.fresh + 1
  nodup := by
    rw [List.map_append, List.map_singleton, List.nodup_append]
    refine ⟨l.nodup, List.nodup_singleton _, ?_⟩
    rintro n hn m hm rfl
    obtain ⟨e, he, rfl⟩ := List.mem_map.mp hn
    have hlt := l.lt_fresh e he
    rw [List.mem_singleton.mp hm] at hlt
    exact Nat.lt_irrefl _ hlt
  lt_fresh e he := by
    rcases List.mem_append.mp he with he | he
    · exact Nat.lt_succ_of_lt (l.lt_fresh e he)
    · rw [List.mem_singleton.mp he]
      exact Nat.lt_succ_self _

/-- New entries for some values, one after another. -/
def pushAll (l : EntryList α) (xs : List α) : EntryList α := xs.foldl push l

/-- Another value for one entry. -/
def replace (l : EntryList α) (n : Nat) (x : α) : EntryList α where
  entries := l.entries.map fun e => if e.1 = n then (n, x) else e
  fresh := l.fresh
  nodup := by
    rw [List.map_map]
    convert l.nodup using 2
    funext e
    dsimp only [Function.comp]
    split
    · next heq => exact heq.symm
    · rfl
  lt_fresh e he := by
    obtain ⟨e', he', rfl⟩ := List.mem_map.mp he
    have hlt := l.lt_fresh e' he'
    split
    · next heq => exact heq ▸ hlt
    · exact hlt

/-- One entry less. -/
def erase (l : EntryList α) (n : Nat) : EntryList α where
  entries := l.entries.filter fun e => e.1 ≠ n
  fresh := l.fresh
  nodup := (List.filter_sublist.map _).nodup l.nodup
  lt_fresh e he := l.lt_fresh e (List.mem_of_mem_filter he)

/-- The values in order. -/
def values (l : EntryList α) : List α := l.entries.map Prod.snd

/-- The number of the entry at a position. -/
def numberAt (l : EntryList α) (i : Nat) : Option Nat := l.entries[i]?.map Prod.fst

@[simp] theorem values_emptyAt (n : Nat) : (emptyAt n : EntryList α).values = [] := rfl

@[simp] theorem values_push (l : EntryList α) (x : α) : (l.push x).values = l.values ++ [x] := by
  simp [values, push]

@[simp] theorem values_pushAll (l : EntryList α) (xs : List α) :
    (l.pushAll xs).values = l.values ++ xs := by
  induction xs generalizing l with
  | nil => simp [pushAll]
  | cons x xs ih =>
    rw [pushAll, List.foldl_cons, ← pushAll, ih, values_push, List.append_assoc,
      List.singleton_append]

section Position

variable {l : EntryList α} {i n : Nat}

/-- The entry at a position, between entries with other numbers. -/
theorem exists_of_numberAt (h : l.numberAt i = some n) :
    ∃ front x rest, l.entries = front ++ (n, x) :: rest ∧ front.length = i ∧
      (∀ e ∈ front, e.1 ≠ n) ∧ ∀ e ∈ rest, e.1 ≠ n := by
  obtain ⟨⟨m, x⟩, hentry, rfl⟩ := Option.map_eq_some_iff.mp h
  obtain ⟨hi, heq⟩ := List.getElem?_eq_some_iff.mp hentry
  have hsplit : l.entries = l.entries.take i ++ (m, x) :: l.entries.drop (i + 1) := by
    rw [← heq, ← List.drop_eq_getElem_cons hi, List.take_append_drop]
  have hnodup := l.nodup
  rw [hsplit, List.map_append, List.map_cons, List.nodup_middle, List.nodup_cons, List.mem_append,
    not_or] at hnodup
  refine ⟨_, x, _, hsplit, List.length_take_of_le (Nat.le_of_lt hi), ?_, ?_⟩
  · exact fun e he hm => hnodup.1.1 (List.mem_map.mpr ⟨e, he, hm⟩)
  · exact fun e he hm => hnodup.1.2 (List.mem_map.mpr ⟨e, he, hm⟩)

theorem lt_length_of_numberAt (h : l.numberAt i = some n) : i < l.values.length := by
  obtain ⟨e, hentry, -⟩ := Option.map_eq_some_iff.mp h
  rw [values, List.length_map]
  exact (List.getElem?_eq_some_iff.mp hentry).1

/-- Every position has an entry with a number. -/
theorem exists_numberAt (h : i < l.values.length) : ∃ n, l.numberAt i = some n := by
  rw [values, List.length_map] at h
  exact ⟨_, by rw [numberAt, List.getElem?_eq_getElem h]; rfl⟩

/-- Where an entry was changed, its value is another one. -/
theorem values_replace (h : l.numberAt i = some n) (y : α) :
    (l.replace n y).values = l.values.set i y := by
  obtain ⟨front, x, rest, hentries, rfl, hfront, hrest⟩ := exists_of_numberAt h
  have hsame : ∀ es : List (Nat × α), (∀ e ∈ es, e.1 ≠ n) →
      (es.map fun e => if e.1 = n then (n, y) else e) = es := by
    intro es hes
    refine (List.map_congr_left fun e he => if_neg (hes e he)).trans (List.map_id _)
  simp only [values, replace]
  rw [hentries, List.map_append, List.map_cons, hsame front hfront, hsame rest hrest, if_pos rfl]
  simp

theorem entries_erase (h : l.numberAt i = some n) :
    (l.erase n).entries = l.entries.eraseIdx i := by
  obtain ⟨front, x, rest, hentries, rfl, hfront, hrest⟩ := exists_of_numberAt h
  have hsame : ∀ es : List (Nat × α), (∀ e ∈ es, e.1 ≠ n) → (es.filter fun e => e.1 ≠ n) = es :=
    fun es hes => List.filter_eq_self.mpr fun e he => decide_eq_true (hes e he)
  show l.entries.filter (fun e => e.1 ≠ n) = _
  rw [hentries, List.filter_append, List.filter_cons_of_neg (by simp), hsame front hfront,
    hsame rest hrest, List.eraseIdx_append_of_length_le (Nat.le_refl _), Nat.sub_self]
  rfl

/-- Where an entry was removed, its value is missing. -/
theorem values_erase (h : l.numberAt i = some n) : (l.erase n).values = l.values.eraseIdx i := by
  rw [values, entries_erase h, values, List.eraseIdx_map]

/-- Where an entry is after another one was removed. -/
theorem numberAt_erase (h : l.numberAt i = some n) {k m : Nat} (hk : l.numberAt k = some m)
    (hne : k ≠ i) : (l.erase n).numberAt (if i < k then k - 1 else k) = some m := by
  rw [numberAt, entries_erase h, ← hk, numberAt, List.getElem?_eraseIdx]
  split
  · next hlt =>
    rw [if_neg (by omega), Nat.sub_add_cancel (by omega)]
  · next hge => rw [if_pos (by omega)]

/-- An entry is at one position only. -/
theorem position_unique (h : l.numberAt i = some n) {k : Nat} (hk : l.numberAt k = some n) : k = i := by
  by_contra hne
  have hgone := numberAt_erase h hk hne
  obtain ⟨e, hentry, he⟩ := Option.map_eq_some_iff.mp hgone
  have hmem := (List.mem_filter.mp (List.mem_of_getElem? hentry)).2
  exact of_decide_eq_true hmem he

end Position

end EntryList

end TiBackup.Lib
