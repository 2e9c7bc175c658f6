import TiBackup.Lib.Normalize
import TiBackup.Model.Validate

/-!
# TiBackup.Files.BackupIds

**Where a PBS backup id leads.** An id `<type>/<id>` becomes part of two paths:
`<dest>/<id>` for the archives of a guest and `<root>/<type>/<id>` for its snapshots. Both
stay where they belong for every id that `validPbsBackupId` accepts, except for the two
names that `validIdentifier` rejects and this check does not: `vm/..` passes, and its
archives go to the folder above the destination (`pbsBackupId_stays_iff`).
-/

namespace TiBackup

open Lib Lib.Path

/-- The types an id can have. -/
theorem plainName_of_pbsTypes {type : List Char} (h : type ++ ['/'] ∈ pbsTypes) :
    PlainName type := by
  have hcases : type = "vm".toList ∨ type = "ct".toList ∨ type = "host".toList := by
    simp only [pbsTypes, List.mem_cons, List.not_mem_nil, or_false] at h
    rcases h with h | h | h
    · exact .inl (List.append_inj_left' (by rw [h]; rfl) rfl)
    · exact .inr (.inl (List.append_inj_left' (by rw [h]; rfl) rfl))
    · exact .inr (.inr (List.append_inj_left' (by rw [h]; rfl) rfl))
  rcases hcases with rfl | rfl | rfl
  · decide
  · decide
  · decide

/-- What an accepted id consists of: a type, a slash, and name characters with perhaps a
final line break. -/
theorem validPbsBackupId_cases {s : String} (h : validPbsBackupId s = true) :
    ∃ type name, type ++ ['/'] ∈ pbsTypes ∧ s.toList = type ++ '/' :: name ∧ name ≠ [] ∧
      ∀ c ∈ name, isNameChar c = true ∨ c = '\n' := by
  have hbody : ∀ cs, (pbsTypes.any fun t => t.isPrefixOf cs &&
      oneOrMore isNameChar (cs.drop t.length)) = true → ∃ type name, type ++ ['/'] ∈ pbsTypes ∧
        cs = type ++ '/' :: name ∧ name ≠ [] ∧ ∀ c ∈ name, isNameChar c = true := by
    intro cs hcs
    obtain ⟨t, ht, hmatch⟩ := List.any_eq_true.mp hcs
    rw [Bool.and_eq_true, List.isPrefixOf_iff_prefix] at hmatch
    obtain ⟨name, rfl⟩ := hmatch.1
    obtain ⟨hne, hchars⟩ := oneOrMore_iff.mp hmatch.2
    rw [List.drop_left] at hne hchars
    obtain ⟨type, rfl⟩ : ∃ type, t = type ++ ['/'] := by
      simp only [pbsTypes, List.mem_cons, List.not_mem_nil, or_false] at ht
      rcases ht with rfl | rfl | rfl
      · exact ⟨"vm".toList, rfl⟩
      · exact ⟨"ct".toList, rfl⟩
      · exact ⟨"host".toList, rfl⟩
    exact ⟨type, name, ht, by simp, hne, hchars⟩
  rcases matchEnd_iff.mp h with hmatch | ⟨cs, hcs, hmatch⟩
  · obtain ⟨type, name, htype, hs, hne, hchars⟩ := hbody _ hmatch
    exact ⟨type, name, htype, hs, hne, fun c hc => .inl (hchars c hc)⟩
  · obtain ⟨type, name, htype, rfl, hne, hchars⟩ := hbody _ hmatch
    refine ⟨type, name ++ ['\n'], htype, by rw [hcs]; simp, by simp, ?_⟩
    intro c hc
    rcases List.mem_append.mp hc with hc | hc
    · exact .inl (hchars c hc)
    · exact .inr (List.mem_singleton.mp hc)

/-- The two parts of an accepted id, split at its first slash. -/
theorem parts_of_validPbsBackupId {type id : String} (h : validPbsBackupId (type ++ "/" ++ id) = true)
    (htype : '/' ∉ type.toList) :
    PlainName type.toList ∧ id.toList ≠ [] ∧ '/' ∉ id.toList := by
  obtain ⟨t, name, ht, hs, hne, hchars⟩ := validPbsBackupId_cases h
  have hplain := plainName_of_pbsTypes ht
  have hsplit : type.toList ++ '/' :: id.toList = t ++ '/' :: name := by
    rw [← hs]
    simp [String.toList_append]
  have hpieces := congrArg (List.splitOn '/') hsplit
  rw [List.splitOn_append_cons_self_of_not_mem htype,
    List.splitOn_append_cons_self_of_not_mem hplain.noSlash] at hpieces
  obtain ⟨rfl, -⟩ := List.cons.inj hpieces
  have hid : id.toList = name := (List.cons.inj (List.append_cancel_left hsplit)).2
  rw [hid]
  refine ⟨hplain, hne, ?_⟩
  intro hslash
  rcases hchars _ hslash with hchar | hchar
  · exact absurd hchar (by decide)
  · exact absurd hchar (by decide)

/-- The folders of an id are where they belong: its archives in an entry of the destination
folder, whichever that is, and its snapshots in an entry of an entry of the root. An empty
text names no folder. -/
structure IdStays (type id : String) : Prop where
  archives : ∀ dest, dest ≠ "" → (place (dest ++ "/" ++ id)).ChildOf (place dest)
  snapshots : ∀ root, root ≠ "" → ∃ group, group.ChildOf (place root) ∧
    (place (root ++ "/" ++ (type ++ "/" ++ id))).ChildOf group

/-- **Backup ids stay below their folder**, except for the ids `.` and `..`. -/
theorem pbsBackupId_stays_iff {type id : String} (h : validPbsBackupId (type ++ "/" ++ id) = true)
    (htype : '/' ∉ type.toList) : IdStays type id ↔ id ≠ "." ∧ id ≠ ".." := by
  obtain ⟨hplain, hne, hslash⟩ := parts_of_validPbsBackupId h htype
  have harchives : ∀ dest, dest ≠ "" →
      place (dest ++ "/" ++ id) = (place dest).step id.toList := by
    intro dest hdest
    rw [place_append_slash hdest, pieces_of_noSlash hslash]
    rfl
  constructor
  · intro hstays
    have hchild := (hstays.archives "/srv" (by decide)).length
    rw [harchives "/srv" (by decide)] at hchild
    constructor
    · rintro rfl
      exact absurd hchild (by decide)
    · rintro rfl
      exact absurd hchild (by decide)
  · rintro ⟨hdot, hdotdot⟩
    have hname : PlainName id.toList := by
      refine ⟨hne, hslash, ?_, ?_⟩
      · intro heq
        exact hdot (String.toList_injective heq)
      · intro heq
        exact hdotdot (String.toList_injective heq)
    constructor
    · intro dest hdest
      rw [harchives dest hdest, Place.step_plain _ hname]
      exact Place.childOf_child _ hname
    · intro root hroot
      refine ⟨(place root).child type.toList, Place.childOf_child _ hplain, ?_⟩
      rw [place_append_slash hroot, pieces_append_slash, pieces_of_noSlash hplain.noSlash,
        pieces_of_noSlash hslash]
      rw [List.singleton_append, Place.go_cons, Place.go_cons, Place.go_nil,
        Place.step_plain _ hplain, Place.step_plain _ hname]
      exact Place.childOf_child _ hname

/-- The condition on an ordinary id: its folders are where they belong. -/
theorem pbsBackupId_stays_guest : IdStays "vm" "101" :=
  (pbsBackupId_stays_iff (by decide) (by decide)).mpr (by decide)

/-- The check accepts `vm/..`, and its archives go to the folder above the destination. -/
theorem pbsBackupId_escapes : validPbsBackupId "vm/.." = true ∧
    place ("/srv/pbs" ++ "/" ++ "..") = place "/srv" ∧
    ¬ ∀ type id : String, validPbsBackupId (type ++ "/" ++ id) = true → '/' ∉ type.toList →
      IdStays type id := by
  refine ⟨by decide, by decide, ?_⟩
  intro hall
  have hchild := ((hall "vm" ".." (by decide) (by decide)).archives "/srv/pbs" (by decide)).length
  exact absurd hchild (by decide)

end TiBackup
