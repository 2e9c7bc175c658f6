import TiBackup.Model.WebApp

/-!
# TiBackup.Files.Grammar

**What the name checks accept.** `validIdentifier`, `validPbsBackupId` and `validUuid` are
meant for names, backup ids and uuids of a plain grammar, which the browser checks new
folders by, too. Besides these they accept the same texts with one line break at the end,
since `$` matches right before it; no other text is accepted or rejected wrongly
(`checks_exact_iff`).
-/

namespace TiBackup

open Lib

/-! ### The grammar -/

/-- One or more name characters. -/
def IsName (s : String) : Prop := s ≠ "" ∧ ∀ c ∈ s.toList, isNameChar c = true

/-- Up to 128 name characters, but not `.` or `..`. -/
structure IsIdentifier (s : String) : Prop where
  name : IsName s
  length : s.length ≤ 128
  notDot : s ≠ "."
  notDotDot : s ≠ ".."

/-- A type, a slash, and a name. -/
def IsBackupId (s : String) : Prop :=
  ∃ type ∈ ["vm", "ct", "host"], ∃ id, IsName id ∧ s = type ++ "/" ++ id

/-- Hexadecimal digits and dashes. -/
structure IsUuid (s : String) : Prop where
  atLeast : 8 ≤ s.length
  atMost : s.length ≤ 64
  digits : ∀ c ∈ s.toList, isUuidChar c = true

/-- A text with a line break behind it. -/
def WithBreak (P : String → Prop) (s : String) : Prop := ∃ t, s = t ++ "\n" ∧ P t

theorem isName_iff {s : String} : oneOrMore isNameChar s.toList = true ↔ IsName s := by
  rw [oneOrMore_iff, IsName, ne_eq, String.toList_eq_nil_iff]

theorem isNameChar_range {c : Char} (h : isNameChar c = true) : 32 < c.toNat ∧ c.toNat < 128 := by
  simp only [isNameChar, Bool.or_eq_true, Bool.and_eq_true, decide_eq_true_eq, Char.le_def,
    UInt32.le_iff_toNat_le] at h
  have hrange : ∀ {lo hi : Char}, 32 < lo.toNat → hi.toNat < 128 →
      lo.toNat ≤ c.toNat ∧ c.toNat ≤ hi.toNat → 32 < c.toNat ∧ c.toNat < 128 :=
    fun hlo hhi h => ⟨hlo.trans_le h.1, h.2.trans_lt hhi⟩
  rcases h with ((((h | h) | h) | rfl) | rfl) | rfl
  · exact hrange (by decide) (by decide) h
  · exact hrange (by decide) (by decide) h
  · exact hrange (by decide) (by decide) h
  · decide
  · decide
  · decide

/-! ### The final line break -/

/-- What `$` accepts: the text itself, or all of it but a final line break. -/
theorem matchEnd_iff_withBreak {s : String} {body : List Char → Bool} :
    matchEnd s.toList body = true ↔
      body s.toList = true ∨ WithBreak (fun t => body t.toList = true) s := by
  rw [matchEnd_iff]
  refine or_congr_right ?_
  constructor
  · rintro ⟨ds, hs, hbody⟩
    refine ⟨String.ofList ds, ?_, (congrArg body String.toList_ofList).trans hbody⟩
    rw [← String.toList_inj, hs, String.toList_append, String.toList_ofList]
    rfl
  · rintro ⟨t, rfl, hbody⟩
    exact ⟨t.toList, by rw [String.toList_append]; rfl, hbody⟩

theorem WithBreak.mem {P : String → Prop} {s : String} (h : WithBreak P s) : '\n' ∈ s.toList := by
  obtain ⟨t, rfl, -⟩ := h
  simp [String.toList_append]

theorem WithBreak.congr {P Q : String → Prop} (h : ∀ t, P t ↔ Q t) {s : String} :
    WithBreak P s ↔ WithBreak Q s :=
  exists_congr fun t => and_congr_right fun _ => h t

/-- A check is exact where the text is not accepted for the final line break. -/
theorem exact_iff {accepted meant broken : Prop} (h : accepted ↔ meant ∨ broken)
    (hdisjoint : broken → ¬ meant) : (accepted ↔ meant) ↔ ¬ broken := by
  rw [h]
  constructor
  · intro hexact hbroken
    exact hdisjoint hbroken (hexact.mp (.inr hbroken))
  · intro hnot
    exact ⟨fun hor => hor.resolve_right hnot, .inl⟩

/-! ### Each check -/

theorem IsName.no_break {s : String} (h : IsName s) : '\n' ∉ s.toList := fun hmem =>
  absurd (h.2 _ hmem) (by decide)

theorem IsBackupId.no_break {s : String} (h : IsBackupId s) : '\n' ∉ s.toList := by
  obtain ⟨type, htype, id, hid, rfl⟩ := h
  have hall : ∀ type ∈ ["vm", "ct", "host"], '\n' ∉ (type ++ "/").toList := by decide
  rw [String.toList_append, List.mem_append, not_or]
  exact ⟨hall type htype, hid.no_break⟩

theorem IsUuid.no_break {s : String} (h : IsUuid s) : '\n' ∉ s.toList := fun hmem =>
  absurd (h.digits _ hmem) (by decide)

/-- A name that fits under the limit with a line break behind it. With one, `.` and `..` are not
refused. -/
def ShortName (t : String) : Prop := IsName t ∧ t.length ≤ 127

theorem validIdentifier_iff {s : String} :
    validIdentifier s = true ↔ IsIdentifier s ∨ WithBreak ShortName s := by
  have hunits : matchEnd s.toList (oneOrMore isNameChar) = true → utf16Length s = s.length := by
    intro hmatch
    refine utf16Length_eq_length ?_
    intro c hc
    rcases (chars_of_matchEnd hmatch).2 c hc with hchar | rfl
    · exact (isNameChar_range hchar).2.trans (by decide)
    · decide
  have hcheck : validIdentifier s = true ↔ (s ≠ "" ∧ utf16Length s ≤ 128) ∧
      matchEnd s.toList (oneOrMore isNameChar) = true ∧ s ≠ "." ∧ s ≠ ".." := by
    rw [validIdentifier]
    split
    · next hsize =>
      simp only [Bool.or_eq_true, String.isEmpty_iff, decide_eq_true_eq] at hsize
      refine iff_of_false Bool.false_ne_true ?_
      rintro ⟨⟨hne, hle⟩, -⟩
      exact hsize.elim hne (not_lt.mpr hle)
    · next hsize =>
      simp only [Bool.or_eq_true, String.isEmpty_iff, decide_eq_true_eq, not_or, not_lt] at hsize
      simp [hsize]
  rw [hcheck]
  constructor
  · rintro ⟨⟨-, hlength⟩, hmatch, hdot, hdotdot⟩
    rw [hunits hmatch] at hlength
    rcases matchEnd_iff_withBreak.mp hmatch with hbody | ⟨t, rfl, hbody⟩
    · exact .inl ⟨isName_iff.mp hbody, hlength, hdot, hdotdot⟩
    · rw [String.length_append] at hlength
      exact .inr ⟨t, rfl, isName_iff.mp hbody, Nat.le_of_succ_le_succ hlength⟩
  · rintro (h | h)
    · have hmatch := matchEnd_iff_withBreak.mpr (.inl (isName_iff.mpr h.name))
      exact ⟨⟨h.name.1, by rw [hunits hmatch]; exact h.length⟩, hmatch, h.notDot, h.notDotDot⟩
    · have hmem := h.mem
      obtain ⟨t, rfl, hname, hlength⟩ := h
      have hmatch : matchEnd (t ++ "\n").toList (oneOrMore isNameChar) = true :=
        matchEnd_iff_withBreak.mpr (.inr ⟨t, rfl, isName_iff.mpr hname⟩)
      refine ⟨⟨?_, ?_⟩, hmatch, ?_, ?_⟩
      · intro heq
        rw [heq] at hmem
        exact absurd hmem (by decide)
      · rw [hunits hmatch, String.length_append]
        exact Nat.succ_le_succ hlength
      · intro heq
        rw [heq] at hmem
        exact absurd hmem (by decide)
      · intro heq
        rw [heq] at hmem
        exact absurd hmem (by decide)

theorem isBackupId_iff {s : String} : (pbsTypes.any fun t =>
    t.isPrefixOf s.toList && oneOrMore isNameChar (s.toList.drop t.length)) = true ↔
      IsBackupId s := by
  have happend : ∀ type id : String, (type ++ "/" ++ id).toList = (type ++ "/").toList ++ id.toList :=
    fun _ _ => String.toList_append
  simp only [List.any_eq_true, Bool.and_eq_true, List.isPrefixOf_iff_prefix]
  constructor
  · rintro ⟨t, ht, ⟨name, hname⟩, hmatch⟩
    obtain ⟨type, htype, rfl⟩ : ∃ type ∈ ["vm", "ct", "host"], t = (type ++ "/").toList := by
      simp only [pbsTypes, List.mem_cons, List.not_mem_nil, or_false] at ht
      rcases ht with rfl | rfl | rfl
      · exact ⟨"vm", by simp, by decide⟩
      · exact ⟨"ct", by simp, by decide⟩
      · exact ⟨"host", by simp, by decide⟩
    rw [← hname, List.drop_left] at hmatch
    refine ⟨type, htype, String.ofList name, ?_, ?_⟩
    · rwa [← isName_iff, String.toList_ofList]
    · rw [← String.toList_inj, ← hname, happend, String.toList_ofList]
  · rintro ⟨type, htype, id, hid, rfl⟩
    refine ⟨(type ++ "/").toList, ?_, ?_, ?_⟩
    · have hall : ∀ type ∈ ["vm", "ct", "host"], (type ++ "/").toList ∈ pbsTypes := by decide
      exact hall type htype
    · rw [happend]
      exact List.prefix_append _ _
    · rw [happend, List.drop_left, isName_iff]
      exact hid

theorem validPbsBackupId_iff {s : String} :
    validPbsBackupId s = true ↔ IsBackupId s ∨ WithBreak IsBackupId s := by
  rw [validPbsBackupId, matchEnd_iff_withBreak, isBackupId_iff,
    WithBreak.congr fun _ => isBackupId_iff]

theorem isUuid_iff {s : String} : between 8 64 isUuidChar s.toList = true ↔ IsUuid s := by
  rw [between, Bool.and_eq_true, Bool.and_eq_true, decide_eq_true_eq, decide_eq_true_eq,
    List.all_eq_true, String.length_toList]
  exact ⟨fun ⟨⟨hlo, hhi⟩, hdigits⟩ => ⟨hlo, hhi, hdigits⟩,
    fun h => ⟨⟨h.atLeast, h.atMost⟩, h.digits⟩⟩

theorem validUuid_iff {s : String} : validUuid s = true ↔ IsUuid s ∨ WithBreak IsUuid s := by
  rw [validUuid, matchEnd_iff_withBreak, isUuid_iff, WithBreak.congr fun _ => isUuid_iff]

/-- The names that the browser sends for a new folder. -/
theorem pickerNewFolder_iff {s : String} : (∃ typed, WebApp.pickerNewFolder typed = some s) ↔
    IsName s ∧ s ≠ "." ∧ s ≠ ".." := by
  have hsome : ∀ {name : String}, (if (!oneOrMore isNameChar name.toList || name = "." ||
      name = "..") = true then none else some name) = some s ↔
        name = s ∧ IsName s ∧ s ≠ "." ∧ s ≠ ".." := by
    intro name
    split
    · next hrejected =>
      refine iff_of_false (by simp) ?_
      rintro ⟨rfl, hname, hdot, hdotdot⟩
      simp [isName_iff.mpr hname, hdot, hdotdot] at hrejected
    · next haccepted =>
      simp only [Bool.or_eq_true, Bool.not_eq_true', decide_eq_true_eq, not_or,
        Bool.not_eq_false] at haccepted
      obtain ⟨⟨hname, hdot⟩, hdotdot⟩ := haccepted
      rw [Option.some.injEq]
      refine ⟨?_, fun h => h.1⟩
      rintro rfl
      exact ⟨rfl, isName_iff.mp hname, hdot, hdotdot⟩
  constructor
  · rintro ⟨typed, htyped⟩
    exact (hsome.mp htyped).2
  · intro h
    refine ⟨s, hsome.mpr ⟨?_, h⟩⟩
    rw [trimmed_eq_self, String.ofList_toList]
    intro c hc
    have hrange := isNameChar_range (h.1.2 c hc)
    simp only [isTrimmedChar, List.contains_eq_mem, List.mem_cons, List.not_mem_nil, or_false,
      Bool.or_eq_false_iff, Bool.and_eq_false_iff, decide_eq_false_iff_not, not_or]
    omega

/-! ### All of them -/

/-- The three checks accept exactly their grammar, and the browser sends the names for new
folders that `validIdentifier` accepts, but for the limit of the length. -/
structure ChecksExact (s : String) : Prop where
  identifier : validIdentifier s = true ↔ IsIdentifier s
  backupId : validPbsBackupId s = true ↔ IsBackupId s
  uuid : validUuid s = true ↔ IsUuid s
  folder : (∃ typed, WebApp.pickerNewFolder typed = some s) ∧ s.length ≤ 128 ↔
    validIdentifier s = true

/-- **The checks are exact** for every text but the names (`.` and `..` too), backup ids and
uuids that have a line break behind them. -/
theorem checks_exact_iff (s : String) : ChecksExact s ↔
    ¬ WithBreak (fun t => ShortName t ∨ IsBackupId t ∨ IsUuid t) s := by
  have hidentifier : (validIdentifier s = true ↔ IsIdentifier s) ↔ ¬ WithBreak ShortName s :=
    exact_iff validIdentifier_iff fun hbreak h => h.name.no_break hbreak.mem
  have hbackupId : (validPbsBackupId s = true ↔ IsBackupId s) ↔ ¬ WithBreak IsBackupId s :=
    exact_iff validPbsBackupId_iff fun hbreak h => h.no_break hbreak.mem
  have huuid : (validUuid s = true ↔ IsUuid s) ↔ ¬ WithBreak IsUuid s :=
    exact_iff validUuid_iff fun hbreak h => h.no_break hbreak.mem
  have hpicker : (∃ typed, WebApp.pickerNewFolder typed = some s) ∧ s.length ≤ 128 ↔
      IsIdentifier s := by
    rw [pickerNewFolder_iff]
    exact ⟨fun ⟨⟨hname, hdot, hdotdot⟩, hlength⟩ => ⟨hname, hlength, hdot, hdotdot⟩,
      fun h => ⟨⟨h.name, h.notDot, h.notDotDot⟩, h.length⟩⟩
  have hbreak : WithBreak (fun t => ShortName t ∨ IsBackupId t ∨ IsUuid t) s ↔
      WithBreak ShortName s ∨ WithBreak IsBackupId s ∨ WithBreak IsUuid s := by
    simp only [WithBreak, and_or_left, exists_or]
  rw [hbreak, not_or, not_or, ← hidentifier, ← hbackupId, ← huuid]
  constructor
  · intro h
    exact ⟨h.identifier, h.backupId, h.uuid⟩
  · rintro ⟨hi, hb, hu⟩
    exact ⟨hi, hb, hu, hpicker.trans hi.symm⟩

/-- **A line break at the end is accepted** by all three checks, and not by the browser. -/
theorem checks_lineBreak : validIdentifier "photos\n" = true ∧
    validPbsBackupId "vm/101\n" = true ∧ validUuid "01234567\n" = true ∧
    (¬ ∃ typed, WebApp.pickerNewFolder typed = some "photos\n") ∧ ¬ ∀ s, ChecksExact s := by
  have hname : validIdentifier "photos\n" = true := by decide
  have hmeant : ¬ IsIdentifier "photos\n" := fun h => h.name.no_break (by decide)
  refine ⟨hname, by decide, by decide, ?_, ?_⟩
  · intro hpicker
    exact (pickerNewFolder_iff.mp hpicker).1.no_break (by decide)
  · intro hall
    exact hmeant ((hall _).identifier.mp hname)

end TiBackup
