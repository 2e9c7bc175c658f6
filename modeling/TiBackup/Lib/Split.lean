import Mathlib.Data.List.Basic
import Mathlib.Tactic.Common

/-!
# TiBackup.Lib.Split

**The pieces of a text between separators.** Where two texts are put together, the last piece
of the first one and the first piece of the second one become one piece, and the others stay
(`splitOn_append`).
-/

namespace TiBackup.Lib

variable {α : Type} [DecidableEq α] {a : α}

theorem splitOn_append (xs ys : List α) :
    ∃ front last first rest, xs.splitOn a = front ++ [last] ∧ ys.splitOn a = first :: rest ∧
      (xs ++ ys).splitOn a = front ++ (last ++ first) :: rest := by
  induction xs with
  | nil =>
    obtain ⟨first, rest, hys⟩ := List.exists_cons_of_ne_nil (List.splitOn_ne_nil a ys)
    exact ⟨[], [], first, rest, List.splitOn_nil a, hys, hys⟩
  | cons x xs ih =>
    obtain ⟨front, last, first, rest, hxs, hys, hall⟩ := ih
    rw [List.cons_append, List.splitOn_cons_eq_if_modifyHead, List.splitOn_cons_eq_if_modifyHead, hxs,
      hall]
    by_cases hx : x = a
    · exact ⟨[] :: front, last, first, rest, by simp [hx], hys, by simp [hx]⟩
    · cases front with
      | nil => exact ⟨[], x :: last, first, rest, by simp [hx], hys, by simp [hx]⟩
      | cons piece front =>
        exact ⟨(x :: piece) :: front, last, first, rest, by simp [hx], hys, by simp [hx]⟩

/-- What has no separator becomes a part of the first piece. -/
theorem splitOn_append_of_not_mem {xs : List α} (h : a ∉ xs) (ys : List α) :
    (xs ++ ys).splitOn a = (ys.splitOn a).modifyHead (xs ++ ·) := by
  obtain ⟨front, last, first, rest, hxs, hys, hall⟩ := splitOn_append (a := a) xs ys
  rw [List.splitOn_eq_singleton h] at hxs
  obtain ⟨rfl, rfl⟩ : front = [] ∧ xs = last := by
    cases front with
    | nil => exact ⟨rfl, by simpa using hxs⟩
    | cons piece front => simp at hxs
  rw [hall, hys]
  rfl

/-- The pieces are made of what was split. -/
theorem mem_of_mem_splitOn {x : α} {piece xs : List α} (h : piece ∈ xs.splitOn a) (hx : x ∈ piece) :
    x ∈ xs := by
  induction xs generalizing piece with
  | nil =>
    rw [List.splitOn_nil, List.mem_singleton] at h
    rwa [h] at hx
  | cons y ys ih =>
    obtain ⟨first, rest, hys⟩ := List.exists_cons_of_ne_nil (List.splitOn_ne_nil a ys)
    rw [List.splitOn_cons_eq_if_modifyHead, hys] at h
    rw [hys] at ih
    split at h
    · rcases List.mem_cons.mp h with rfl | h
      · cases hx
      · exact List.mem_cons_of_mem _ (ih h hx)
    · rcases List.mem_cons.mp h with rfl | h
      · rcases List.mem_cons.mp hx with rfl | hx
        · exact List.mem_cons_self
        · exact List.mem_cons_of_mem _ (ih List.mem_cons_self hx)
      · exact List.mem_cons_of_mem _ (ih (List.mem_cons_of_mem _ h) hx)

end TiBackup.Lib
