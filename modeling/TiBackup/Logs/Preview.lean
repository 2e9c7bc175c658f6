import TiBackup.Lib.Utf8
import TiBackup.Model.RunLog

/-!
# TiBackup.Logs.Preview

**What the log viewer shows of a long log.** Of a file over the cap it owes the longest
tail that fits and begins at a line. `readLogForView` goes back by the cap and drops
everything up to the next line break, which is this tail, unless it has come out at the
beginning of a line: then the line that it drops is a whole one
(`readLogForView_right_iff`).
-/

namespace TiBackup

open Lib

/-! ### Tails that begin at a line -/

/-- A tail that begins directly behind a line break. -/
def LineTail (file tail : Bytes) : Prop := 10 :: tail <:+ file

/-- The longest tail of at most `cap` bytes that begins at a line; it is empty when there
is none. -/
structure LongestTail (cap : Nat) (file tail : Bytes) : Prop where
  fits : LineTail file tail ∧ tail.length ≤ cap ∨
    tail = [] ∧ ∀ t, LineTail file t → cap < t.length
  longest : ∀ t, LineTail file t → t.length ≤ cap → t.length ≤ tail.length

/-- The byte before the last `cap` bytes is a line break. -/
def CutAtLine (cap : Nat) (file : Bytes) : Prop :=
  cap < file.length ∧ file[file.length - cap - 1]? = some 10

/-- Two tails that begin at lines: the shorter one is a tail of the longer one. -/
theorem LineTail.of_length_lt {file front t : Bytes} (h : LineTail file t)
    (hlt : t.length < front.length) (hfront : front <:+ file) : LineTail front t :=
  List.suffix_of_suffix_length_le h hfront hlt

theorem cutAtLine_iff {cap : Nat} {file : Bytes} (h : cap < file.length) :
    CutAtLine cap file ↔ LineTail file (file.drop (file.length - cap)) := by
  have hpos : file.length - cap - 1 < file.length := by omega
  have hnext : file.length - cap - 1 + 1 = file.length - cap := by omega
  have hdrop := List.drop_eq_getElem_cons hpos
  rw [hnext] at hdrop
  rw [CutAtLine, List.getElem?_eq_getElem hpos, Option.some.injEq]
  constructor
  · rintro ⟨-, hten⟩
    rw [LineTail, ← hten, ← hdrop]
    exact List.drop_suffix _ _
  · intro htail
    refine ⟨h, ?_⟩
    have heq := List.suffix_iff_eq_drop.mp htail
    have hlength : file.length - (10 :: file.drop (file.length - cap)).length =
        file.length - cap - 1 := by
      rw [List.length_cons, List.length_drop]
      omega
    rw [hlength, hdrop] at heq
    exact (List.cons.inj heq).1.symm

/-- A line is dropped with its end, or everything when there is no end. -/
theorem dropLine_cases (bs : Bytes) :
    (∃ line, 10 ∉ line ∧ bs = line ++ 10 :: Api.dropLine bs) ∨
      10 ∉ bs ∧ Api.dropLine bs = [] := by
  induction bs with
  | nil => exact .inr ⟨List.not_mem_nil, rfl⟩
  | cons b bs ih =>
    by_cases hb : b = 10
    · subst hb
      exact .inl ⟨[], List.not_mem_nil, rfl⟩
    · have hdrop : Api.dropLine (b :: bs) = Api.dropLine bs := by
        rw [Api.dropLine, List.dropWhile_cons_of_pos (by simpa using hb), Api.dropLine]
      have hmem : ∀ line, 10 ∉ line → 10 ∉ b :: line := fun line hline =>
        List.not_mem_cons_of_ne_of_not_mem (Ne.symm hb) hline
      rw [hdrop]
      rcases ih with ⟨line, hline, hbs⟩ | ⟨hnone, hnil⟩
      · exact .inl ⟨b :: line, hmem line hline, congrArg (b :: ·) hbs⟩
      · exact .inr ⟨hmem bs hnone, hnil⟩

/-- Behind the dropped line there is nothing shorter to begin at. -/
theorem LineTail.length_le_dropLine {bs t : Bytes} (h : LineTail bs t) :
    t.length ≤ (Api.dropLine bs).length := by
  rcases dropLine_cases bs with ⟨line, hline, hbs⟩ | ⟨hnone, -⟩
  · by_contra hlt
    rw [not_le] at hlt
    have hrest : Api.dropLine bs <:+ bs :=
      (List.drop_suffix 1 _).trans (List.dropWhile_suffix _)
    obtain ⟨front, hfront⟩ := h
    have hlength := congrArg List.length (hfront.trans hbs)
    rw [List.length_append, List.length_append, List.length_cons, List.length_cons] at hlength
    have hwhole : front ++ [10] <+: bs := ⟨t, by rw [List.append_assoc]; exact hfront⟩
    have hopening : front ++ [10] <+: line := by
      refine List.prefix_of_prefix_length_le hwhole ⟨_, hbs.symm⟩ ?_
      rw [List.length_append, List.length_singleton]
      omega
    exact hline (hopening.subset (by simp))
  · exact absurd (h.subset List.mem_cons_self) hnone

/-- **The dropped line was a partial one.** What is left is the longest tail, if the cut
was not at a line. -/
theorem longestTail_dropLine {cap : Nat} {file : Bytes} (hcap : cap < file.length)
    (hcut : ¬ CutAtLine cap file) :
    LongestTail cap file (Api.dropLine (file.drop (file.length - cap))) := by
  have hsuffix := List.drop_suffix (file.length - cap) file
  have hlength : (file.drop (file.length - cap)).length = cap := by
    rw [List.length_drop]
    omega
  have hshort : ∀ t, LineTail file t → t.length ≤ cap →
      LineTail (file.drop (file.length - cap)) t := by
    intro t ht hle
    refine ht.of_length_lt ?_ hsuffix
    rw [hlength]
    refine lt_of_le_of_ne hle ?_
    intro heq
    refine hcut ((cutAtLine_iff hcap).mpr ?_)
    have ht' : t <:+ file := (List.suffix_cons 10 t).trans ht
    rwa [← heq, ← List.suffix_iff_eq_drop.mp ht']
  constructor
  · rcases dropLine_cases (file.drop (file.length - cap)) with ⟨line, -, hline⟩ | ⟨hnone, hnil⟩
    · refine .inl ⟨List.IsSuffix.trans ⟨line, hline.symm⟩ hsuffix, ?_⟩
      have hle := congrArg List.length hline
      rw [hlength, List.length_append, List.length_cons] at hle
      omega
    · refine .inr ⟨hnil, ?_⟩
      intro t ht
      by_contra hle
      exact hnone ((hshort t ht (not_lt.mp hle)).subset List.mem_cons_self)
  · intro t ht hle
    exact (hshort t ht hle).length_le_dropLine

/-- At a line there is nothing to be dropped. -/
theorem LongestTail.eq_of_cutAtLine {cap : Nat} {file tail : Bytes}
    (h : LongestTail cap file tail) (hcut : CutAtLine cap file) :
    tail = file.drop (file.length - cap) := by
  have hline := (cutAtLine_iff hcut.1).mp hcut
  have hlength : (file.drop (file.length - cap)).length = cap := by
    rw [List.length_drop]
    have := hcut.1
    omega
  have hle := h.longest _ hline hlength.le
  rcases h.fits with ⟨htail, hfits⟩ | ⟨-, hnone⟩
  · have hsuffix : tail <:+ file := (List.suffix_cons 10 tail).trans htail
    rw [List.suffix_iff_eq_drop.mp hsuffix]
    congr 1
    omega
  · exact absurd hlength (hnone _ hline).ne'

/-! ### What is read of them -/

theorem count_newline_textMode (bs : Bytes) : (Api.textMode bs).count 10 = bs.count 10 := by
  induction bs using Api.textMode.induct with
  | case1 rest ih => simpa [Api.textMode] using ih
  | case2 b rest hb ih => rw [Api.textMode, List.count_cons, List.count_cons, ih]; exact hb
  | case3 => rfl

theorem textMode_of_no_newline {bs : Bytes} (h : 10 ∉ bs) : Api.textMode bs = bs := by
  induction bs using Api.textMode.induct with
  | case1 rest ih => exact absurd (List.mem_cons_of_mem 13 List.mem_cons_self) h
  | case2 b rest hb ih =>
    rw [Api.textMode, ih fun hmem => h (List.mem_cons_of_mem b hmem)]
    exact hb
  | case3 => rfl

/-- Reading keeps the line breaks, -/
theorem count_newline_readText (bs : Bytes) : (readText bs).toList.count '\n' = bs.count 10 := by
  rw [readText, count_newline_fromUtf8, count_newline_textMode]

/-- so that a text shows that a line was dropped, wherever the tail begins. -/
theorem readText_dropLine_ne {file : Bytes} (h : 3 < file.length) (k : Nat) :
    readText (Api.dropLine (file.drop k)) ≠ readText file := by
  intro heq
  have hcount := congrArg (fun s : String => s.toList.count '\n') heq
  simp only [count_newline_readText] at hcount
  rcases dropLine_cases (file.drop k) with ⟨line, hline, htail⟩ | ⟨-, hnil⟩
  · have hle : (file.drop k).count 10 ≤ file.count 10 := (List.drop_sublist k file).count_le 10
    rw [congrArg (List.count 10) htail, List.count_append, List.count_cons_self,
      List.count_eq_zero.mpr hline] at hle
    omega
  · -- There is no text left, and a file without line breaks has some.
    rw [hnil] at heq hcount
    have hnone : 10 ∉ file := List.count_eq_zero.mp hcount.symm
    rw [readText, Api.textMode, fromUtf8_nil, readText, textMode_of_no_newline hnone] at heq
    rcases fromUtf8_eq_empty_iff.mp heq.symm with rfl | rfl
    · simp at h
    · exact absurd h (by decide)

/-! ### The view -/

/-- The cap of a view. -/
def viewCap (full : Bool) : Nat :=
  if full then Api.kMaxLogFullBytes else Api.kMaxLogPreviewBytes

theorem three_lt_viewCap (full : Bool) : 3 < viewCap full := by
  cases full <;> decide

/-- The view of a log is right: the whole log if it fits under the cap, and the longest
tail that begins at a line otherwise. -/
structure ViewRight (cap : Nat) (file : Bytes) (v : Api.LogView) : Prop where
  truncated : v.truncated = decide (cap < file.length)
  whole : file.length ≤ cap → v.text = readText file
  tail : cap < file.length → ∃ tail, LongestTail cap file tail ∧ v.text = readText tail

theorem readLogForView_of_le {file : Bytes} {full : Bool} (h : file.length ≤ viewCap full) :
    Api.readLogForView file full = { text := readText file, truncated := false } := by
  have hcap : ¬ file.length > if full then Api.kMaxLogFullBytes else Api.kMaxLogPreviewBytes :=
    not_lt.mpr h
  simp only [Api.readLogForView, if_neg hcap, readText]

theorem readLogForView_of_lt {file : Bytes} {full : Bool} (h : viewCap full < file.length) :
    Api.readLogForView file full =
      { text := readText (Api.dropLine (file.drop (file.length - viewCap full))),
        truncated := true } := by
  have hcap : file.length > if full then Api.kMaxLogFullBytes else Api.kMaxLogPreviewBytes := h
  simp only [Api.readLogForView, if_pos hcap, readText, viewCap]

/-- **A view shows the whole log** exactly when the log fits under the cap. -/
theorem text_readLogForView_iff (file : Bytes) (full : Bool) :
    (Api.readLogForView file full).text = readText file ↔ file.length ≤ viewCap full := by
  rcases Nat.lt_or_ge (viewCap full) file.length with hlt | hle
  · rw [readLogForView_of_lt hlt]
    exact iff_of_false (readText_dropLine_ne ((three_lt_viewCap full).trans hlt) _)
      (not_le.mpr hlt)
  · rw [readLogForView_of_le hle]
    exact iff_of_true rfl hle

theorem not_viewRight_of_cutAtLine {file : Bytes} {full : Bool}
    (hcut : CutAtLine (viewCap full) file) :
    ¬ ViewRight (viewCap full) file (Api.readLogForView file full) := by
  intro hright
  obtain ⟨tail, htail, htext⟩ := hright.tail hcut.1
  rw [htail.eq_of_cutAtLine hcut, readLogForView_of_lt hcut.1] at htext
  refine readText_dropLine_ne ?_ 0 htext
  have hcap := three_lt_viewCap full
  have hlt := hcut.1
  rw [List.length_drop]
  omega

/-- **The view of a log is its longest clean tail**, exactly when the cut is not at the
beginning of a line already. -/
theorem readLogForView_right_iff (file : Bytes) (full : Bool) :
    ViewRight (viewCap full) file (Api.readLogForView file full) ↔
      ¬ CutAtLine (viewCap full) file := by
  constructor
  · intro hright hcut
    exact not_viewRight_of_cutAtLine hcut hright
  · intro hcut
    rcases Nat.lt_or_ge (viewCap full) file.length with hlt | hle
    · rw [readLogForView_of_lt hlt]
      exact ⟨(decide_eq_true hlt).symm, fun h => absurd hlt (not_lt.mpr h),
        fun _ => ⟨_, longestTail_dropLine hlt hcut, rfl⟩⟩
    · rw [readLogForView_of_le hle]
      exact ⟨(decide_eq_false (not_lt.mpr hle)).symm, fun _ => rfl,
        fun h => absurd h (not_lt.mpr hle)⟩

/-- A log of two lines; the second one fits under the cap to the byte. -/
def fittingLog (full : Bool) : Bytes :=
  10 :: (List.replicate (viewCap full - 1) 97 ++ [10])

/-- **A line that fits is dropped**, and with it all that there is to be shown. -/
theorem readLogForView_fittingLog : (∀ full, CutAtLine (viewCap full) (fittingLog full) ∧
      Api.readLogForView (fittingLog full) full = { text := "", truncated := true }) ∧
    ¬ ∀ (file : Bytes) (full : Bool),
      ViewRight (viewCap full) file (Api.readLogForView file full) := by
  have hcut : ∀ full, (fittingLog full).length = viewCap full + 1 := by
    intro full
    have hcap := three_lt_viewCap full
    rw [fittingLog, List.length_cons, List.length_append, List.length_replicate,
      List.length_singleton]
    omega
  have hat : ∀ full, CutAtLine (viewCap full) (fittingLog full) := by
    intro full
    refine ⟨by rw [hcut]; omega, ?_⟩
    rw [hcut, Nat.add_sub_cancel_left, Nat.sub_self]
    rfl
  refine ⟨fun full => ⟨hat full, ?_⟩, ?_⟩
  · have hrest : (fittingLog full).drop ((fittingLog full).length - viewCap full) =
        List.replicate (viewCap full - 1) 97 ++ [10] := by
      rw [hcut, Nat.add_sub_cancel_left]
      rfl
    have hline : Api.dropLine (List.replicate (viewCap full - 1) 97 ++ [10]) = [] := by
      rw [Api.dropLine, List.dropWhile_append_of_pos]
      · rfl
      · intro b hb
        rw [List.eq_of_mem_replicate hb]
        decide
    rw [readLogForView_of_lt (hat full).1, hrest, hline]
    rfl
  · intro hall
    exact not_viewRight_of_cutAtLine (hat false) (hall (fittingLog false) false)

end TiBackup
