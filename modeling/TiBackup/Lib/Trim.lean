import Mathlib.Data.List.DropRight
import Mathlib.Tactic.Common

/-!
# TiBackup.Lib.Trim

**Trimming, and the first occurrence of a separator**, as what they leave and where they
cut: a list that is trimmed is the only one that begins and ends with something else and has
nothing but space around it (`trim_eq_iff`), and a list is cut at a separator into a part
without it and the rest (`cut_at_idxOf_iff`).
-/

namespace TiBackup.Lib

variable {α : Type}

/-! ### Trimming -/

section Trim

variable {space : α → Bool}

/-- Drop the space at both ends. -/
def trim (space : α → Bool) (xs : List α) : List α := (xs.dropWhile space).rdropWhile space

/-- No space at either end. -/
structure Bare (space : α → Bool) (xs : List α) : Prop where
  first : ∀ x ∈ xs.head?, space x = false
  last : ∀ x ∈ xs.getLast?, space x = false

/-- With space around it. -/
def Around (space : α → Bool) (core xs : List α) : Prop :=
  ∃ before after, (∀ x ∈ before, space x = true) ∧ (∀ x ∈ after, space x = true) ∧
    xs = before ++ (core ++ after)

theorem around_trim (xs : List α) : Around space (trim space xs) xs := by
  refine ⟨xs.takeWhile space, (xs.dropWhile space).rtakeWhile space, ?_, ?_, ?_⟩
  · exact fun x hx => List.mem_takeWhile_imp hx
  · exact fun x hx => List.mem_rtakeWhile_imp hx
  · rw [trim, List.rdropWhile_append_rtakeWhile, List.takeWhile_append_dropWhile]

theorem bare_trim (xs : List α) : Bare space (trim space xs) := by
  constructor
  · intro x hx
    obtain ⟨rest, hrest⟩ := List.rdropWhile_prefix space (l := xs.dropWhile space)
    have hhead : (xs.dropWhile space).head? = some x := by
      rw [← hrest, List.head?_append, ← trim, hx, Option.some_or]
    have hnot := List.head?_dropWhile_not space xs
    rwa [hhead] at hnot
  · intro x hx
    have hne : trim space xs ≠ [] := by
      intro hnil
      rw [hnil] at hx
      cases hx
    have hlast := List.rdropWhile_last_not space (xs.dropWhile space) hne
    rw [List.getLast?_eq_some_getLast hne] at hx
    obtain rfl := Option.some.inj hx
    exact Bool.not_eq_true _ |>.mp hlast

theorem dropWhile_eq_self {xs : List α} (h : ∀ x ∈ xs.head?, space x = false) :
    xs.dropWhile space = xs := by
  cases xs with
  | nil => rfl
  | cons x xs =>
    have hx := h x rfl
    rw [List.dropWhile_cons_of_neg (by rw [hx]; exact Bool.false_ne_true)]

theorem rdropWhile_append_of_pos {xs ys : List α} (h : ∀ y ∈ ys, space y = true) :
    (xs ++ ys).rdropWhile space = xs.rdropWhile space := by
  rw [List.rdropWhile, List.reverse_append, List.dropWhile_append_of_pos, List.rdropWhile]
  exact fun y hy => h y (List.mem_reverse.mp hy)

/-- **What is left** is bare, and has space around it. -/
theorem trim_eq_iff {xs core : List α} :
    trim space xs = core ↔ Bare space core ∧ Around space core xs := by
  constructor
  · rintro rfl
    exact ⟨bare_trim xs, around_trim xs⟩
  · rintro ⟨hbare, before, after, hbefore, hafter, rfl⟩
    rw [trim, List.dropWhile_append_of_pos hbefore]
    cases core with
    | nil =>
      rw [List.nil_append, List.rdropWhile_eq_nil_iff]
      exact fun x hx => hafter x ((List.dropWhile_sublist _).subset hx)
    | cons x core =>
      have hstays : ((x :: core) ++ after).dropWhile space = (x :: core) ++ after :=
        dropWhile_eq_self fun y hy => hbare.first y hy
      rw [hstays, rdropWhile_append_of_pos hafter, List.rdropWhile_eq_self_iff]
      intro hne
      rw [hbare.last _ (List.getLast?_eq_some_getLast hne)]
      exact Bool.false_ne_true

theorem trim_of_around {xs core : List α} (hbare : Bare space core) (h : Around space core xs) :
    trim space xs = core := trim_eq_iff.mpr ⟨hbare, h⟩

end Trim

/-! ### The first separator -/

section Cut

variable [DecidableEq α] {a : α}

theorem idxOf_append_cons {front : List α} (h : a ∉ front) (rest : List α) :
    (front ++ a :: rest).idxOf a = front.length := by
  rw [List.idxOf_append_of_notMem h, List.idxOf_cons_self, Nat.add_zero]

theorem cut_append_cons {front : List α} (h : a ∉ front) (rest : List α) :
    let xs := front ++ a :: rest
    xs.idxOf a < xs.length ∧ xs.take (xs.idxOf a) = front ∧ xs.drop (xs.idxOf a + 1) = rest := by
  dsimp only
  rw [idxOf_append_cons h]
  refine ⟨?_, List.take_left, ?_⟩
  · rw [List.length_append, List.length_cons]
    omega
  · rw [← List.drop_drop, List.drop_left]
    rfl

/-- **A list is cut at its first separator.** -/
theorem cut_at_idxOf_iff {xs front rest : List α} :
    xs.idxOf a < xs.length ∧ xs.take (xs.idxOf a) = front ∧ xs.drop (xs.idxOf a + 1) = rest ↔
      a ∉ front ∧ xs = front ++ a :: rest := by
  constructor
  · rintro ⟨hlt, rfl, rfl⟩
    obtain ⟨front, rest, rfl, hfront⟩ :=
      List.eq_append_cons_of_mem (List.idxOf_lt_length_iff.mp hlt)
    obtain ⟨-, htake, hdrop⟩ := cut_append_cons hfront rest
    rw [htake, hdrop]
    exact ⟨hfront, rfl⟩
  · rintro ⟨hfront, rfl⟩
    exact cut_append_cons hfront rest

end Cut

end TiBackup.Lib
