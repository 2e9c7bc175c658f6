import TiBackup.Lib.Normalize
import TiBackup.Lib.Split
import TiBackup.Model.WebApp

/-!
# TiBackup.Files.Generic

**Destinations that do not depend on the disk.** The editor stores a chosen folder with
the mount directory replaced by `%MNTBACKUPDIR%`, and a run puts the mount directory of
its own disk back in.

`toGeneric` decides by the beginning of the text whether a path is below the mount
directory. It is right for the paths that go on with a slash and never leave the mount
directory again (`toGeneric_exact_iff`). `/mnt/disk2` is not below `/mnt/disk` and is
rewritten all the same.
-/

namespace TiBackup

open Lib Lib.Path

namespace WebApp

/-- A folder that a disk can be mounted at. -/
structure MountDir (m : String) : Prop where
  absolute : m.toList.head? = some '/'
  noTrailingSlash : m.toList.getLast? ≠ some '/'

theorem MountDir.toList_ne {m : String} (h : MountDir m) : m.toList ≠ [] := by
  intro hnil
  have hhead := h.absolute
  rw [hnil] at hhead
  cases hhead

theorem MountDir.ne_empty {m : String} (h : MountDir m) : m ≠ "" := by
  rintro rfl
  exact h.toList_ne rfl

/-- The variable replaced by a mount directory, wherever it stands. -/
def expand (m s : String) : String :=
  String.ofList (replaceAll mntBackupDir.toList m.toList s.toList)

/-- Making a path generic is exact. If the variable is put in, the path is the mount
directory or below it, and with another mount directory for the variable the result is at
the same place below that one. -/
structure GenericExact (m p : String) : Prop where
  within : mntBackupDir.toList <+: (toGeneric m p).toList → ∃ rest names,
    p.toList = m.toList ++ rest ∧ place p = (place m).below names ∧
      expand m (toGeneric m p) = p ∧ ∀ m', MountDir m' →
        (expand m' (toGeneric m p)).toList = m'.toList ++ rest ∧
        place (expand m' (toGeneric m p)) = (place m').below names
  others : ¬ mntBackupDir.toList <+: (toGeneric m p).toList → toGeneric m p = p

/-- What may stand behind the mount directory: nothing, or a slash and a path that stays
inside. It must not contain the variable. -/
structure KeepsInside (rest : List Char) : Prop where
  slash : rest = [] ∨ rest.head? = some '/'
  inside : staysInside (rest.splitOn '/') = true
  noVariable : ¬ mntBackupDir.toList <:+: rest

/-! ### What is stored and what is put back -/

theorem toGeneric_of_isPrefix {m p : String} (hm : MountDir m) {rest : List Char}
    (h : p.toList = m.toList ++ rest) :
    (toGeneric m p).toList = mntBackupDir.toList ++ rest := by
  have hprefix : m.toList.isPrefixOf p.toList = true :=
    List.isPrefixOf_iff_prefix.mpr ⟨rest, h.symm⟩
  have hne : m.isEmpty = false := by simpa using hm.ne_empty
  rw [toGeneric, if_pos (by rw [hne, hprefix]; rfl), String.toList_ofList, h, replaceFirst_append]

theorem toGeneric_of_not_isPrefix {m p : String} (h : ¬ m.toList <+: p.toList) :
    toGeneric m p = p := by
  rw [toGeneric, if_neg]
  rw [Bool.and_eq_true, List.isPrefixOf_iff_prefix]
  exact fun hboth => h hboth.2

theorem toList_expand {m s : String} {rest : List Char}
    (h : s.toList = mntBackupDir.toList ++ rest) :
    (expand m s).toList = m.toList ++ replaceAll mntBackupDir.toList m.toList rest := by
  rw [expand, String.toList_ofList, h, replaceAll_append (by decide)]

/-- Putting a mount directory in leaves a text without the variable as it is, and no other
one. -/
theorem MountDir.replaceAll_iff {m : String} (hm : MountDir m) (rest : List Char) :
    replaceAll mntBackupDir.toList m.toList rest = rest ↔ ¬ mntBackupDir.toList <:+: rest :=
  replaceAll_eq_self_iff (by decide) hm.toList_ne (by rw [hm.absolute]; decide)

/-! ### A mount directory that no piece of the path spells -/

/-- A name longer than the path. -/
def freshName (rest : List Char) : List Char := List.replicate (rest.length + 1) 'a'

/-- The mount directory of that name. -/
def freshMount (rest : List Char) : String := String.ofList ('/' :: freshName rest)

theorem noSlash_freshName (rest : List Char) : '/' ∉ freshName rest := by
  intro hmem
  exact absurd (List.eq_of_mem_replicate hmem) (by decide)

theorem freshName_notMem (rest : List Char) : freshName rest ∉ rest.splitOn '/' := by
  intro hmem
  have hlength := length_le_of_mem_splitOn hmem
  rw [freshName, List.length_replicate] at hlength
  omega

theorem plainName_freshName (rest : List Char) : PlainName (freshName rest) := by
  have hlast : '.' ∉ freshName rest := fun hmem =>
    absurd (List.eq_of_mem_replicate hmem) (by decide)
  refine ⟨by simp [freshName], noSlash_freshName rest, ?_, ?_⟩
  · intro hdot
    exact hlast (by rw [hdot]; simp)
  · intro hdot
    exact hlast (by rw [hdot]; simp)

theorem mountDir_freshMount (rest : List Char) : MountDir (freshMount rest) := by
  constructor
  · simp [freshMount]
  · rw [freshMount, String.toList_ofList, freshName, List.replicate_succ', ← List.cons_append,
      List.getLast?_concat]
    decide

theorem place_freshMount (rest : List Char) :
    place (freshMount rest) = ⟨true, 0, [freshName rest]⟩ := by
  have hpieces : pieces (freshMount rest) = [[], freshName rest] := by
    rw [pieces, freshMount, String.toList_ofList, splitOn_slash_cons,
      List.splitOn_eq_singleton (noSlash_freshName rest)]
  have hroot : isStay [] = true := rfl
  rw [place, hpieces, Place.go_cons, Place.step_of_isStay hroot, Place.go_cons,
    Place.step_plain _ (plainName_freshName rest)]
  simp [origin, freshMount, Place.child]

/-- **What a fresh mount directory shows.** A path read behind it is still below it only if
it goes on with a slash and stays inside. -/
theorem keeps_of_fresh {p : String} {rest : List Char} {names : List (List Char)}
    (hp : p.toList = (freshMount rest).toList ++ rest)
    (h : place p = (place (freshMount rest)).below names) :
    (rest = [] ∨ rest.head? = some '/') ∧ staysInside (rest.splitOn '/') = true := by
  have hmem : freshName rest ∈ (place p).names := by
    rw [h, place_freshMount]
    exact List.mem_cons_self
  have hslash : rest = [] ∨ rest.head? = some '/' := by
    by_contra hnot
    rw [not_or] at hnot
    obtain ⟨c, r, rfl⟩ := List.exists_cons_of_ne_nil hnot.1
    have hc : c ≠ '/' := by simpa using hnot.2
    -- the first piece of the rest becomes a part of the mount directory's name
    have hpieces : pieces p = [] :: ((c :: r).splitOn '/').modifyHead (freshName (c :: r) ++ ·) := by
      rw [pieces, hp, freshMount, String.toList_ofList, List.cons_append, splitOn_slash_cons,
        splitOn_append_of_not_mem (noSlash_freshName _)]
    have hfresh := freshName_notMem (c :: r)
    have hsplit : (c :: r).splitOn '/' = (r.splitOn '/').modifyHead ([c] ++ ·) :=
      @splitOn_append_of_not_mem _ _ '/' [c] (by simpa using Ne.symm hc) r
    rcases Place.mem_names_go hmem with horigin | hpiece
    · cases horigin
    · rw [hpieces] at hpiece
      cases htail : r.splitOn '/' with
      | nil => exact List.splitOn_ne_nil _ _ htail
      | cons d ds =>
        rw [htail, List.modifyHead_cons] at hsplit
        rw [hsplit] at hpiece hfresh
        rcases List.mem_cons.mp hpiece with hnil | hpiece
        · exact (plainName_freshName _).nonempty hnil
        · rcases List.mem_cons.mp hpiece with hhead | hpiece
          · simp at hhead
          · exact hfresh (List.mem_cons_of_mem _ hpiece)
  refine ⟨hslash, ?_⟩
  rw [place_of_append (mountDir_freshMount rest).ne_empty hp hslash, place_freshMount] at hmem
  exact @Place.staysFrom_of_mem ⟨true, 0, []⟩ _ _ [] List.not_mem_nil List.not_mem_nil
    (freshName_notMem rest) hmem

/-! ### The main result -/

/-- **Making a destination generic is exact** for the paths that do not begin with the mount
directory, and for those that go on with a slash, stay inside and do not contain the
variable. It is exact for no others. -/
theorem toGeneric_exact_iff {m p : String} (hm : MountDir m) (hp : p.toList.head? = some '/') :
    GenericExact m p ↔ ∀ rest, p.toList = m.toList ++ rest → KeepsInside rest := by
  constructor
  · intro hexact rest hrest
    have hstored := toGeneric_of_isPrefix hm hrest
    obtain ⟨rest', names, hrest', -, hback, hother⟩ :=
      hexact.within ⟨rest, hstored.symm⟩
    obtain rfl : rest = rest' := List.append_cancel_left (hrest.symm.trans hrest')
    have hsame : m.toList ++ replaceAll mntBackupDir.toList m.toList rest = m.toList ++ rest := by
      rw [← toList_expand hstored, hback, hrest]
    obtain ⟨hfresh, hplace⟩ := hother _ (mountDir_freshMount rest)
    obtain ⟨hslash, hinside⟩ := keeps_of_fresh hfresh hplace
    exact ⟨hslash, hinside, (hm.replaceAll_iff rest).mp (List.append_cancel_left hsame)⟩
  · intro hkeeps
    by_cases hprefix : m.toList <+: p.toList
    · obtain ⟨rest, hrest⟩ := hprefix
      obtain ⟨hslash, hinside, hnone⟩ := hkeeps rest hrest.symm
      have hstored := toGeneric_of_isPrefix hm hrest.symm
      have hput : ∀ m', MountDir m' →
          (expand m' (toGeneric m p)).toList = m'.toList ++ rest := by
        intro m' hm'
        rw [toList_expand hstored, (hm'.replaceAll_iff rest).mpr hnone]
      have hplace : ∀ m' q, MountDir m' → q.toList = m'.toList ++ rest →
          place q = (place m').below (inner (rest.splitOn '/')) := by
        intro m' q hm' hq
        rw [place_of_append hm'.ne_empty hq hslash, Place.go_of_staysInside _ hinside]
      constructor
      · intro _
        refine ⟨rest, inner (rest.splitOn '/'), hrest.symm, hplace m p hm hrest.symm,
          String.toList_injective ((hput m hm).trans hrest), ?_⟩
        intro m' hm'
        exact ⟨hput m' hm', hplace m' _ hm' (hput m' hm')⟩
      · intro hnot
        exact absurd ⟨rest, hstored.symm⟩ hnot
    · rw [← toGeneric_of_not_isPrefix hprefix] at hp
      constructor
      · rintro ⟨tail, htail⟩
        rw [← htail, List.head?_append_of_ne_nil _ (by decide)] at hp
        exact absurd hp (by decide)
      · intro _
        exact toGeneric_of_not_isPrefix hprefix

/-- A folder on the disk is made generic exactly. -/
theorem toGeneric_exact_below : GenericExact "/mnt/disk" "/mnt/disk/documents" := by
  refine (toGeneric_exact_iff ⟨by decide, by decide⟩ (by decide)).mpr ?_
  intro rest hrest
  have hsplit : "/mnt/disk".toList ++ "/documents".toList = "/mnt/disk".toList ++ rest := hrest
  obtain rfl := List.append_cancel_left hsplit
  exact ⟨.inr (by decide), by decide, by decide⟩

/-- **A sibling of the mount directory** is taken for a folder on the disk. With another
disk it is written to a folder beside the mount directory. -/
theorem toGeneric_sibling : toGeneric "/mnt/disk" "/mnt/disk2" = "%MNTBACKUPDIR%2" ∧
    expand "/media/usb" (toGeneric "/mnt/disk" "/mnt/disk2") = "/media/usb2" ∧
    ¬ ∀ m p : String, MountDir m → p.toList.head? = some '/' → GenericExact m p := by
  refine ⟨by decide, by decide, ?_⟩
  intro hall
  have hexact := hall "/mnt/disk" "/mnt/disk2" ⟨by decide, by decide⟩ (by decide)
  obtain ⟨_, names, -, hplace, -⟩ := hexact.within (by decide)
  have hfirst : ((place "/mnt/disk").below names).names.take 2 = (place "/mnt/disk").names :=
    List.take_left' (by decide)
  rw [← hplace] at hfirst
  exact absurd hfirst (by decide)

end WebApp

end TiBackup
