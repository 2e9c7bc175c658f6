import Mathlib.Data.List.Infix
import Mathlib.Tactic.Common

/-!
# TiBackup.Lib.Replace

**Replacing one text by another**, at its first occurrence or at every one. Occurrences are
found from left to right, and what is put in is not searched again.

`findMark` looks for the first of several marks: what it finds is a `FirstMark`, and it finds
nothing exactly where there is no mark.
-/

namespace TiBackup.Lib

variable {α : Type} [DecidableEq α]

/-- The first occurrence replaced. -/
def replaceFirst (pat new : List α) : List α → List α
  | [] => if pat.isEmpty then new else []
  | c :: cs =>
      if pat.isPrefixOf (c :: cs) then new ++ (c :: cs).drop pat.length
      else c :: replaceFirst pat new cs

/-- Every occurrence replaced; `skip` elements of the last one are still to be passed. -/
def replaceFrom (pat new : List α) : Nat → List α → List α
  | _, [] => []
  | skip + 1, _ :: cs => replaceFrom pat new skip cs
  | 0, c :: cs =>
      if pat.isPrefixOf (c :: cs) then new ++ replaceFrom pat new (pat.length - 1) cs
      else c :: replaceFrom pat new 0 cs

/-- Every occurrence of a text that is not empty replaced. -/
def replaceAll (pat new s : List α) : List α := replaceFrom pat new 0 s

/-- At the beginning, the first occurrence is what the text begins with. -/
theorem replaceFirst_append (pat new rest : List α) :
    replaceFirst pat new (pat ++ rest) = new ++ rest := by
  cases hs : pat ++ rest with
  | nil =>
    obtain ⟨rfl, rfl⟩ := List.append_eq_nil_iff.mp hs
    simp [replaceFirst]
  | cons c cs =>
    have hprefix : pat.isPrefixOf (c :: cs) = true :=
      List.isPrefixOf_iff_prefix.mpr ⟨rest, hs⟩
    rw [replaceFirst, if_pos hprefix, ← hs, List.drop_left]

theorem replaceFrom_drop (pat new : List α) (skip : Nat) (s : List α) :
    replaceFrom pat new skip s = replaceAll pat new (s.drop skip) := by
  induction s generalizing skip with
  | nil =>
    rw [List.drop_nil]
    cases skip with
    | zero => rfl
    | succ skip => rfl
  | cons c cs ih =>
    cases skip with
    | zero => rfl
    | succ skip => rw [replaceFrom, ih, List.drop_succ_cons]

theorem replaceAll_cons_of_isPrefixOf {pat new : List α} {c : α} {cs : List α}
    (h : pat.isPrefixOf (c :: cs) = true) (hpat : pat ≠ []) :
    replaceAll pat new (c :: cs) = new ++ replaceAll pat new ((c :: cs).drop pat.length) := by
  obtain ⟨n, hn⟩ := Nat.exists_eq_add_one.mpr (List.length_pos_iff.mpr hpat)
  rw [replaceAll, replaceFrom, if_pos h, replaceFrom_drop, hn, Nat.add_sub_cancel,
    List.drop_succ_cons]

theorem replaceAll_cons {pat new : List α} {c : α} {cs : List α}
    (h : ¬ pat.isPrefixOf (c :: cs) = true) :
    replaceAll pat new (c :: cs) = c :: replaceAll pat new cs := by
  rw [replaceAll, replaceFrom, if_neg h]
  rfl

/-- An occurrence at the beginning is replaced, and what follows it on its own. -/
theorem replaceAll_append {pat : List α} (hpat : pat ≠ []) (new rest : List α) :
    replaceAll pat new (pat ++ rest) = new ++ replaceAll pat new rest := by
  cases hs : pat ++ rest with
  | nil => exact absurd (List.append_eq_nil_iff.mp hs).1 hpat
  | cons c cs =>
    have hprefix : pat.isPrefixOf (c :: cs) = true :=
      List.isPrefixOf_iff_prefix.mpr ⟨rest, hs⟩
    rw [replaceAll_cons_of_isPrefixOf hprefix hpat, ← hs, List.drop_left]

/-- **Nothing to replace.** With a text that begins differently put in, a text stays as it
is exactly when the pattern does not occur in it. -/
theorem replaceAll_eq_self_iff {pat new s : List α} (hpat : pat ≠ []) (hnew : new ≠ [])
    (h : new.head? ≠ pat.head?) : replaceAll pat new s = s ↔ ¬ pat <:+: s := by
  induction s with
  | nil =>
    rw [List.infix_nil]
    exact iff_of_true rfl hpat
  | cons c cs ih =>
    by_cases hprefix : pat.isPrefixOf (c :: cs) = true
    · have hhead : (c :: cs).head? = pat.head? := by
        obtain ⟨rest, hrest⟩ := List.isPrefixOf_iff_prefix.mp hprefix
        rw [← hrest, List.head?_append_of_ne_nil _ hpat]
      rw [replaceAll_cons_of_isPrefixOf hprefix hpat]
      refine iff_of_false ?_ (not_not.mpr (List.isPrefixOf_iff_prefix.mp hprefix).isInfix)
      intro heq
      rw [← heq, List.head?_append_of_ne_nil _ hnew] at hhead
      exact h hhead
    · rw [replaceAll_cons hprefix, List.cons.injEq, List.infix_cons_iff, not_or]
      constructor
      · rintro ⟨-, hcs⟩
        exact ⟨fun hpre => hprefix (List.isPrefixOf_iff_prefix.mpr hpre), ih.mp hcs⟩
      · rintro ⟨-, hcs⟩
        exact ⟨rfl, ih.mpr hcs⟩

/-- To replace one element is to do it element by element. -/
theorem replaceAll_singleton (a : α) (new s : List α) :
    replaceAll [a] new s = s.flatMap fun c => if c = a then new else [c] := by
  induction s with
  | nil => rfl
  | cons c cs ih =>
    rw [List.flatMap_cons, ← ih]
    by_cases hc : c = a
    · subst hc
      rw [if_pos rfl]
      exact replaceAll_append (by simp) new cs
    · rw [if_neg hc, replaceAll_cons (by simpa using Ne.symm hc)]
      rfl

example : replaceAll "ab".toList "x".toList "abcabab".toList = "xcxx".toList := by decide

/-! ### The first of several marks -/

/-- The first mark, with what stands before and behind it. -/
def findMark (marks : List (List α)) : List α → Option (List α × List α × List α)
  | [] => none
  | c :: cs =>
      match marks.find? fun m => m.isPrefixOf (c :: cs) with
      | some m => some ([], m, (c :: cs).drop m.length)
      | none => (findMark marks cs).map fun r => (c :: r.1, r.2)

/-- A mark stands behind `front`, and none stands earlier. -/
structure FirstMark (marks : List (List α)) (m front s : List α) : Prop where
  mem : m ∈ marks
  occurs : front ++ m <+: s
  first : ∀ m' ∈ marks, ∀ front', front' ++ m' <+: s → front.length ≤ front'.length

section FirstMark

variable {marks : List (List α)} {m front rest s : List α}

theorem of_find_isPrefixOf (h : (marks.find? fun m => m.isPrefixOf s) = some m) :
    m ∈ marks ∧ m <+: s := by
  have hpre : m.isPrefixOf s = true := List.find?_some (p := fun m : List α => m.isPrefixOf s) h
  exact ⟨List.mem_of_find?_eq_some h, List.isPrefixOf_iff_prefix.mp hpre⟩

omit [DecidableEq α] in
/-- Behind an element that no mark begins with. -/
theorem firstMark_cons_iff {c d : α} {cs : List α} :
    FirstMark marks m (c :: front) (d :: cs) ↔
      c = d ∧ (∀ m' ∈ marks, ¬ m' <+: d :: cs) ∧ FirstMark marks m front cs := by
  constructor
  · intro h
    obtain ⟨rfl, hoccurs⟩ := List.cons_prefix_cons.mp h.occurs
    refine ⟨rfl, ?_, h.mem, hoccurs, ?_⟩
    · intro m' hm' hpre
      exact absurd (h.first m' hm' [] hpre) (by simp)
    · intro m' hm' front' hpre
      have hle := h.first m' hm' (c :: front') (List.cons_prefix_cons.mpr ⟨rfl, hpre⟩)
      exact Nat.le_of_succ_le_succ hle
  · rintro ⟨rfl, hnone, h⟩
    refine ⟨h.mem, List.cons_prefix_cons.mpr ⟨rfl, h.occurs⟩, ?_⟩
    intro m' hm' front' hpre
    cases front' with
    | nil => exact absurd hpre (hnone m' hm')
    | cons e front' => exact Nat.succ_le_succ (h.first m' hm' front' (List.cons_prefix_cons.mp hpre).2)

omit [DecidableEq α] in
/-- A mark is the first one behind a text in which no mark can begin. -/
theorem firstMark_of_not_mem {c : α} (hmarks : ∀ m ∈ marks, m.head? = some c) (hm : m ∈ marks)
    (hfront : c ∉ front) (rest : List α) : FirstMark marks m front (front ++ (m ++ rest)) := by
  induction front with
  | nil => exact ⟨hm, List.prefix_append m rest, fun _ _ _ _ => Nat.zero_le _⟩
  | cons d front ih =>
    rw [List.mem_cons, not_or] at hfront
    refine firstMark_cons_iff.mpr ⟨rfl, ?_, ih hfront.2⟩
    intro m' hm' hpre
    obtain ⟨tail, rfl⟩ := List.head?_eq_some_iff.mp (hmarks m' hm')
    exact hfront.1 (List.cons_prefix_cons.mp hpre).1

/-- What is found is the first mark. -/
theorem findMark_eq_some (h : findMark marks s = some (front, m, rest)) :
    FirstMark marks m front s ∧ s = front ++ (m ++ rest) := by
  induction s generalizing front with
  | nil => cases h
  | cons c cs ih =>
    rw [findMark] at h
    split at h
    · next m' hfind =>
      obtain ⟨rfl, rfl, rfl⟩ : [] = front ∧ m' = m ∧ (c :: cs).drop m'.length = rest := by
        simpa using h
      obtain ⟨hmem, hpre⟩ := of_find_isPrefixOf hfind
      refine ⟨⟨hmem, hpre, fun _ _ _ _ => Nat.zero_le _⟩, ?_⟩
      exact (List.prefix_iff_eq_append.mp hpre).symm
    · next hnone =>
      obtain ⟨⟨front', m', rest'⟩, hfind, heq⟩ := Option.map_eq_some_iff.mp h
      obtain ⟨rfl, rfl, rfl⟩ : c :: front' = front ∧ m' = m ∧ rest' = rest := by simpa using heq
      obtain ⟨hfirst, rfl⟩ := ih hfind
      refine ⟨firstMark_cons_iff.mpr ⟨rfl, ?_, hfirst⟩, rfl⟩
      -- A mark right at the beginning would have been found there.
      intro m₁ hm₁ hpre
      exact List.find?_eq_none.mp hnone m₁ hm₁ (List.isPrefixOf_iff_prefix.mpr hpre)

/-- Nothing is found exactly where there is no mark. -/
theorem findMark_eq_none_iff (hmarks : [] ∉ marks) :
    findMark marks s = none ↔ ∀ m ∈ marks, ¬ m <:+: s := by
  induction s with
  | nil =>
    refine iff_of_true rfl fun m hm hempty => ?_
    rw [List.infix_nil] at hempty
    exact hmarks (hempty ▸ hm)
  | cons c cs ih =>
    rw [findMark]
    split
    · next m hfind =>
      obtain ⟨hmem, hpre⟩ := of_find_isPrefixOf hfind
      exact iff_of_false (by simp) fun hall => hall m hmem hpre.isInfix
    · next hnone =>
      rw [Option.map_eq_none_iff, ih]
      refine forall₂_congr fun m hm => not_congr ?_
      rw [List.infix_cons_iff]
      have hnot := List.find?_eq_none.mp hnone m hm
      exact ⟨.inr, fun h => h.resolve_left fun hpre => hnot (List.isPrefixOf_iff_prefix.mpr hpre)⟩

/-- There is no mark, or a first one. -/
theorem firstMark_or_not (hmarks : [] ∉ marks) (s : List α) :
    (∀ m ∈ marks, ¬ m <:+: s) ∨ ∃ m front, FirstMark marks m front s := by
  cases hfind : findMark marks s with
  | none => exact .inl ((findMark_eq_none_iff hmarks).mp hfind)
  | some r => exact .inr ⟨r.2.1, r.1, (findMark_eq_some hfind).1⟩

end FirstMark

end TiBackup.Lib
