import Mathlib.Data.List.Induction
import TiBackup.Lib.Path

/-!
# TiBackup.Lib.FileSystem

**A file system with symbolic links.** A tree of folders, files and links, known by the
components that lead to an entry, and the resolution of a path in it: component by
component from the root or the current folder, with `.` and `..`, a link's target put
in the place of the link, and an error after too many links.

A path that resolves leads to a *real* entry (`walk_real`): one that is there and is no
link, in a folder that is real too. The way to a real entry over its own components
resolves to itself (`walk_of_real`), and what resolves past a piece of the way was a
folder there (`walk_append`). `makeFolder` adds one real entry and nothing else
(`real_makeFolder`).
-/

namespace TiBackup.Lib

open Lib.Path

/-- What an entry of a folder can be. -/
inductive Entry (α : Type)
  | folder
  | file (content : α)
  | link (target : String)

/-- The entry at some components; the root is always there. -/
def entryAt {α : Type} (entries : List (List (List Char) × Entry α)) (cs : List (List Char)) :
    Option (Entry α) :=
  if cs.isEmpty then some .folder else entries.lookup cs

/-- Is there a folder? -/
def folderAt {α : Type} (entries : List (List (List Char) × Entry α)) (cs : List (List Char)) :
    Bool :=
  match entryAt entries cs with
  | some .folder => true
  | _ => false

/-- A file system, and the folder a process runs in. -/
structure FileSystem (α : Type) where
  entries : List (List (List Char) × Entry α)
  current : List (List Char)
  current_folder : folderAt entries current = true
  /-- Every entry is in a folder, under a plain name. -/
  in_folder : ∀ e ∈ entries,
    folderAt entries e.1.dropLast = true ∧ PlainName (e.1.getLast?.getD [])

theorem folderAt_iff {α : Type} {entries : List (List (List Char) × Entry α)}
    {cs : List (List Char)} : folderAt entries cs = true ↔ entryAt entries cs = some .folder := by
  rw [folderAt]
  split
  · next h => simp [h]
  · next h => simpa using h

namespace FileSystem

variable {α : Type} (fs : FileSystem α)

def entry (cs : List (List Char)) : Option (Entry α) := entryAt fs.entries cs

theorem root_folder : fs.entry [] = some .folder := rfl

/-- Where one piece of a path leads. -/
inductive Hop
  | to (cs : List (List Char))
  | link (base : List (List Char)) (target : List (List Char))

/-- Look up one piece of a path in what was reached. -/
def hop (cur : List (List Char)) (c : List Char) : Option Hop :=
  match fs.entry cur with
  | some .folder =>
    if c = [] ∨ c = ['.'] then some (.to cur)
    else if c = ['.', '.'] then some (.to cur.dropLast)
    else
      match fs.entry (cur ++ [c]) with
      | none => none
      | some (.link target) =>
        some (.link (if target.toList.head? = some '/' then [] else cur) (pieces target))
      | some _ => some (.to (cur ++ [c]))
  | _ => none

/-- Walk down the pieces of a path; `follow` goes on where a link leads. -/
def walkWith (follow : List (List Char) → List (List Char) → Option (List (List Char))) :
    List (List Char) → List (List Char) → Option (List (List Char))
  | cur, [] => some cur
  | cur, c :: todo =>
    match fs.hop cur c with
    | none => none
    | some (.to cs) => walkWith follow cs todo
    | some (.link base target) => follow base (target ++ todo)

/-- Walk down the pieces of a path, over at most `links` links. -/
def walk : (links : Nat) → List (List Char) → List (List Char) → Option (List (List Char))
  | 0 => fs.walkWith fun _ _ => none
  | links + 1 => fs.walkWith (walk links)

/-- Links that are followed before a path is given up. -/
def maxLinks : Nat := 40

/-- The components of the entry a path leads to. -/
def resolve (p : String) : Option (List (List Char)) :=
  fs.walk maxLinks (if p.toList.head? = some '/' then [] else fs.current) (pieces p)

/-- The path of that entry without links, `.` and `..`; empty when there is none. -/
def canonicalPath (p : String) : String :=
  match fs.resolve p with
  | some cs => render cs
  | none => ""

/-- Does a path lead to a regular file? -/
def isFile (p : String) : Bool :=
  match fs.resolve p with
  | some cs =>
    match fs.entry cs with
    | some (.file _) => true
    | _ => false
  | none => false

/-- What is in the file a path leads to. -/
def readFile (p : String) : Option α :=
  match fs.resolve p with
  | some cs =>
    match fs.entry cs with
    | some (.file content) => some content
    | _ => none
  | none => none

/-- An entry that is there and is no link. -/
def Real (cs : List (List Char)) : Prop := ∃ e, fs.entry cs = some e ∧ ∀ target, e ≠ .link target

variable {fs}

/-- Whatever has an entry has a folder it is in, and a plain name there. -/
theorem parent_folder {cs : List (List Char)} {c : List Char} (h : fs.entry (cs ++ [c]) ≠ none) :
    fs.entry cs = some .folder ∧ PlainName c := by
  have hmem : ∃ e, (cs ++ [c], e) ∈ fs.entries := by
    rw [entry, entryAt, if_neg (by simp)] at h
    obtain ⟨e, he⟩ := Option.ne_none_iff_exists'.mp h
    obtain ⟨pre, post, hentries, -⟩ := List.lookup_eq_some_iff.mp he
    exact ⟨e, by simp [hentries]⟩
  obtain ⟨e, he⟩ := hmem
  obtain ⟨hfolder, hplain⟩ := fs.in_folder _ he
  exact ⟨folderAt_iff.mp (by simpa using hfolder), by simpa using hplain⟩

theorem real_of_folder {cs : List (List Char)} (h : fs.entry cs = some .folder) : fs.Real cs :=
  ⟨.folder, h, nofun⟩

theorem Real.entry_ne_none {cs : List (List Char)} (h : fs.Real cs) : fs.entry cs ≠ none := by
  obtain ⟨e, he, -⟩ := h
  rw [he]
  exact Option.some_ne_none e

/-- Every entry but the root is in a folder. -/
theorem folder_dropLast {cs : List (List Char)} (h : fs.entry cs ≠ none) :
    fs.entry cs.dropLast = some .folder := by
  rcases List.eq_nil_or_concat cs with rfl | ⟨ds, d, rfl⟩
  · exact fs.root_folder
  · rw [List.concat_eq_append] at h
    rw [List.concat_eq_append, List.dropLast_concat]
    exact (fs.parent_folder h).1

/-- On the way to an entry there are folders only. -/
theorem folder_of_append {cs ds : List (List Char)} (h : fs.entry (cs ++ ds) ≠ none)
    (hds : ds ≠ []) : fs.entry cs = some .folder := by
  induction ds using List.reverseRecOn with
  | nil => exact absurd rfl hds
  | append_singleton ds d ih =>
    rw [← List.append_assoc] at h
    have hfolder := (fs.parent_folder h).1
    by_cases hnil : ds = []
    · rwa [hnil, List.append_nil] at hfolder
    · exact ih (by rw [hfolder]; exact Option.some_ne_none _) hnil

theorem plain_of_entry {cs : List (List Char)} (h : fs.entry cs ≠ none) :
    ∀ c ∈ cs, PlainName c := by
  induction cs using List.reverseRecOn with
  | nil => simp
  | append_singleton cs c ih =>
    obtain ⟨hfolder, hplain⟩ := fs.parent_folder h
    intro d hd
    rcases List.mem_append.mp hd with hd | hd
    · exact ih (by rw [hfolder]; exact Option.some_ne_none _) d hd
    · rwa [List.mem_singleton.mp hd]

theorem Real.prefix {cs ds : List (List Char)} (h : fs.Real (cs ++ ds)) : fs.Real cs := by
  by_cases hds : ds = []
  · rwa [hds, List.append_nil] at h
  · exact real_of_folder (folder_of_append h.entry_ne_none hds)

/-! ### Where a walk ends -/

/-- Lookups succeed in folders only. -/
theorem folder_of_hop {cur : List (List Char)} {c : List Char} {r : Hop}
    (h : fs.hop cur c = some r) : fs.entry cur = some .folder := by
  rw [hop] at h
  split at h
  · next hfolder => exact hfolder
  · cases h

/-- What a lookup reaches is real. -/
theorem real_of_hop {cur cs : List (List Char)} {c : List Char}
    (h : fs.hop cur c = some (.to cs)) : fs.Real cs := by
  have hfolder := folder_of_hop h
  rw [hop, hfolder] at h
  dsimp only at h
  split at h
  · obtain rfl := Hop.to.inj (Option.some.inj h)
    exact real_of_folder hfolder
  · split at h
    · obtain rfl := Hop.to.inj (Option.some.inj h)
      exact real_of_folder (folder_dropLast (by rw [hfolder]; exact Option.some_ne_none _))
    · split at h
      · cases h
      · cases h
      · next e hnolink he =>
        obtain rfl := Hop.to.inj (Option.some.inj h)
        exact ⟨e, he, fun target htarget => hnolink target htarget⟩

/-- A link is followed from a folder. -/
theorem folder_of_hop_link {cur base target : List (List Char)} {c : List Char}
    (h : fs.hop cur c = some (.link base target)) : fs.entry base = some .folder := by
  have hfolder := folder_of_hop h
  rw [hop, hfolder] at h
  dsimp only at h
  split at h
  · cases h
  · split at h
    · cases h
    · split at h
      · cases h
      · rw [← (Hop.link.inj (Option.some.inj h)).1]
        split
        · exact fs.root_folder
        · exact hfolder
      · cases h

/-- A real entry is reached by its name. -/
theorem hop_of_real {cur : List (List Char)} {c : List Char} (h : fs.Real (cur ++ [c])) :
    fs.hop cur c = some (.to (cur ++ [c])) := by
  obtain ⟨hfolder, hplain⟩ := fs.parent_folder h.entry_ne_none
  obtain ⟨e, he, hnolink⟩ := h
  rw [hop, hfolder]
  dsimp only
  rw [if_neg (not_or.mpr ⟨hplain.nonempty, hplain.notDot⟩), if_neg hplain.notDotDot, he]
  cases e with
  | link target => exact absurd rfl (hnolink target)
  | folder => rfl
  | file content => rfl

section Walk

variable {follow : List (List Char) → List (List Char) → Option (List (List Char))}

theorem walkWith_real
    (hfollow : ∀ {base todo r}, fs.entry base = some .folder → follow base todo = some r → fs.Real r)
    {cur todo r : List (List Char)} (hcur : fs.Real cur)
    (h : fs.walkWith follow cur todo = some r) : fs.Real r := by
  induction todo generalizing cur with
  | nil =>
    obtain rfl := Option.some.inj h
    exact hcur
  | cons c todo ih =>
    rw [walkWith] at h
    split at h
    · cases h
    · next hhop => exact ih (real_of_hop hhop) h
    · next hhop => exact hfollow (folder_of_hop_link hhop) h

/-- A walk ends at a real entry. -/
theorem walk_real {links : Nat} {cur todo r : List (List Char)} (hcur : fs.Real cur)
    (h : fs.walk links cur todo = some r) : fs.Real r := by
  induction links generalizing cur todo r with
  | zero => exact walkWith_real (fun _ h => by cases h) hcur h
  | succ links ih => exact walkWith_real (fun hbase h => ih (real_of_folder hbase) h) hcur h

/-- The way to a real entry over its components leads to it. -/
theorem walkWith_of_real {cur todo : List (List Char)} (h : fs.Real (cur ++ todo)) :
    fs.walkWith follow cur todo = some (cur ++ todo) := by
  induction todo generalizing cur with
  | nil => rw [walkWith, List.append_nil]
  | cons c todo ih =>
    rw [List.append_cons] at h ⊢
    rw [walkWith, hop_of_real h.prefix]
    exact ih h

theorem walkWith_append {ys : List (List Char)} (hys : ys ≠ [])
    (hfollow : ∀ {base todo r}, follow base (todo ++ ys) = some r →
      ∃ m, follow base todo = some m ∧ fs.entry m = some .folder)
    {cur xs r : List (List Char)} (h : fs.walkWith follow cur (xs ++ ys) = some r) :
    ∃ m, fs.walkWith follow cur xs = some m ∧ fs.entry m = some .folder := by
  induction xs generalizing cur with
  | nil =>
    rcases ys with - | ⟨y, ys⟩
    · exact absurd rfl hys
    · rw [List.nil_append, walkWith] at h
      cases hhop : fs.hop cur y with
      | none => simp [hhop] at h
      | some r => exact ⟨cur, rfl, folder_of_hop hhop⟩
  | cons c xs ih =>
    rw [List.cons_append, walkWith] at h
    rw [walkWith]
    split at h
    · cases h
    · exact ih h
    · rw [← List.append_assoc] at h
      exact hfollow h

/-- A walk that goes on after some pieces has reached a folder with them. -/
theorem walk_append {links : Nat} {cur xs ys r : List (List Char)} (hys : ys ≠ [])
    (h : fs.walk links cur (xs ++ ys) = some r) :
    ∃ m, fs.walk links cur xs = some m ∧ fs.entry m = some .folder := by
  induction links generalizing cur xs r with
  | zero => exact walkWith_append hys (fun h => by cases h) h
  | succ links ih =>
    refine walkWith_append hys ?_ h
    intro base todo r h
    exact ih h

end Walk

/-! ### Resolved paths -/

theorem resolve_real {p : String} {cs : List (List Char)} (h : fs.resolve p = some cs) :
    fs.Real cs := by
  refine walk_real ?_ h
  split
  · exact real_of_folder fs.root_folder
  · exact real_of_folder (folderAt_iff.mp fs.current_folder)

theorem head_render (cs : List (List Char)) : (render cs).toList.head? = some '/' := by
  cases cs with
  | nil => rfl
  | cons c cs =>
    rw [toList_render_cons, slashed_cons]
    rfl

/-- A real entry is what its own path leads to. -/
theorem resolve_render {cs : List (List Char)} (h : fs.Real cs) :
    fs.resolve (render cs) = some cs := by
  rw [resolve, if_pos (head_render cs), pieces_render (plain_of_entry h.entry_ne_none)]
  have hroot : fs.hop [] [] = some (.to []) := by
    rw [hop, fs.root_folder]
    rfl
  rw [maxLinks, walk, walkWith, hroot]
  cases cs with
  | nil =>
    show fs.walkWith _ [] [[]] = some []
    rw [walkWith, hroot]
    rfl
  | cons c cs => exact walkWith_of_real (by exact h)

theorem canonicalPath_eq (fs : FileSystem α) (p : String) :
    fs.canonicalPath p = "" ∨ ∃ cs, fs.Real cs ∧ fs.resolve p = some cs ∧
      fs.canonicalPath p = render cs := by
  cases h : fs.resolve p with
  | none => exact .inl (by rw [canonicalPath, h])
  | some cs => exact .inr ⟨cs, resolve_real h, rfl, by rw [canonicalPath, h]⟩

/-- A canonical path that is its own canonical path is the path of a real entry. -/
theorem canonicalPath_self_iff {p : String} (h : Canonical p) :
    fs.canonicalPath p = p ↔ fs.Real (components p) := by
  constructor
  · intro hself
    rcases fs.canonicalPath_eq p with hempty | ⟨cs, hreal, -, hcs⟩
    · exact absurd (hself.symm.trans hempty) h.ne_empty
    · rw [← hself, hcs, components_render (plain_of_entry hreal.entry_ne_none)]
      exact hreal
  · intro hreal
    rw [canonicalPath, ← h.render_components, resolve_render hreal]

/-- What a path with a slash in it leads to is in a folder, which the part before the
slash leads to. -/
theorem folder_of_resolve_slash {p q : String} {cs : List (List Char)}
    (h : fs.resolve (p ++ "/" ++ q) = some cs) :
    ∃ ds, fs.resolve p = some ds ∧ fs.entry ds = some .folder := by
  have hlist : (p ++ "/" ++ q).toList = p.toList ++ '/' :: q.toList := by
    rw [String.toList_append, String.toList_append, List.append_assoc]
    rfl
  rcases hp : p.toList with - | ⟨c, rest⟩
  · have hcurrent : fs.hop fs.current [] = some (.to fs.current) := by
      rw [hop, entry, folderAt_iff.mp fs.current_folder]
      rfl
    refine ⟨fs.current, ?_, folderAt_iff.mp fs.current_folder⟩
    rw [resolve, pieces, hp, maxLinks, walk]
    show fs.walkWith _ fs.current [[]] = _
    rw [walkWith, hcurrent]
    rfl
  · rw [resolve, pieces, hlist, List.splitOn_append_cons_self] at h
    have hhead : (p.toList ++ '/' :: q.toList).head? = p.toList.head? := by rw [hp]; rfl
    rw [hhead] at h
    exact walk_append (List.splitOn_ne_nil _ _) h

/-- What is at a path is what is at its canonical path. -/
theorem resolve_canonicalPath {p : String} (h : fs.canonicalPath p ≠ "") :
    fs.resolve (fs.canonicalPath p) = fs.resolve p := by
  rcases fs.canonicalPath_eq p with hempty | ⟨cs, hreal, hcs, hpath⟩
  · exact absurd hempty h
  · rw [hpath, hcs, resolve_render hreal]

theorem canonicalPath_canonicalPath {p : String} (h : fs.canonicalPath p ≠ "") :
    fs.canonicalPath (fs.canonicalPath p) = fs.canonicalPath p := by
  rw [canonicalPath, resolve_canonicalPath h]
  rfl

theorem isFile_canonicalPath {p : String} (h : fs.canonicalPath p ≠ "") :
    fs.isFile (fs.canonicalPath p) = fs.isFile p := by
  rw [isFile, resolve_canonicalPath h]
  rfl

/-- There is nothing below a regular file. -/
theorem not_isFile_of_slash {p q : String} (h : fs.canonicalPath (p ++ "/" ++ q) ≠ "") :
    fs.isFile (fs.canonicalPath p) = false := by
  rcases fs.canonicalPath_eq (p ++ "/" ++ q) with hempty | ⟨cs, -, hcs, -⟩
  · exact absurd hempty h
  · obtain ⟨ds, hds, hfolder⟩ := folder_of_resolve_slash hcs
    have hpath : fs.canonicalPath p = render ds := by rw [canonicalPath, hds]
    rw [hpath, isFile, resolve_render (real_of_folder hfolder)]
    dsimp only
    rw [hfolder]

theorem canonical_canonicalPath (fs : FileSystem α) (p : String) :
    fs.canonicalPath p = "" ∨ Canonical (fs.canonicalPath p) := by
  rcases fs.canonicalPath_eq p with hempty | ⟨cs, hreal, -, hcs⟩
  · exact .inl hempty
  · rw [hcs]
    exact .inr (canonical_render (plain_of_entry hreal.entry_ne_none))

/-- The folder of a canonical path is a canonical path. -/
theorem canonicalPath_parentFolder {p : String} (hp : Canonical p) (h : fs.canonicalPath p = p) :
    fs.canonicalPath (parentFolder p) = parentFolder p := by
  have hreal : fs.Real (components p) := (canonicalPath_self_iff hp).mp h
  refine (canonicalPath_self_iff hp.parentFolder).mpr ?_
  rw [components_parentFolder hp]
  exact real_of_folder (folder_dropLast hreal.entry_ne_none)

/-! ### New folders -/

theorem entryAt_cons {entries : List (List (List Char) × Entry α)} {k : List (List Char)}
    (hk : k ≠ []) (e : Entry α) (cs : List (List Char)) :
    entryAt ((k, e) :: entries) cs = if cs = k then some e else entryAt entries cs := by
  rw [entryAt, entryAt, List.lookup_cons]
  by_cases hcs : cs = k
  · rw [if_pos hcs, hcs, if_neg (by simpa using hk), beq_self_eq_true]
  · have hbeq : (cs == k) = false := by simpa using hcs
    rw [if_neg hcs, hbeq]

theorem folderAt_cons {entries : List (List (List Char) × Entry α)} {k cs : List (List Char)}
    (hk : k ≠ []) (h : folderAt entries cs = true) :
    folderAt ((k, .folder) :: entries) cs = true := by
  rw [folderAt_iff, entryAt_cons hk]
  split
  · rfl
  · exact folderAt_iff.mp h

/-- A file system with a new folder. -/
def makeFolder (fs : FileSystem α) (cs : List (List Char)) (name : List Char)
    (hfolder : folderAt fs.entries cs = true) (hname : PlainName name) : FileSystem α where
  entries := (cs ++ [name], .folder) :: fs.entries
  current := fs.current
  current_folder := folderAt_cons (by simp) fs.current_folder
  in_folder e he := by
    rcases List.mem_cons.mp he with rfl | he
    · refine ⟨folderAt_cons (by simp) ?_, ?_⟩
      · simpa using hfolder
      · simpa using hname
    · obtain ⟨hparent, hplain⟩ := fs.in_folder e he
      exact ⟨folderAt_cons (by simp) hparent, hplain⟩

/-- The new folder is what is new. -/
theorem real_makeFolder {cs ds : List (List Char)} {name : List Char}
    (hfolder : folderAt fs.entries cs = true) (hname : PlainName name)
    (h : (fs.makeFolder cs name hfolder hname).Real ds) : fs.Real ds ∨ ds = cs ++ [name] := by
  obtain ⟨e, he, hnolink⟩ := h
  have hentry : entryAt ((cs ++ [name], .folder) :: fs.entries) ds = some e := he
  rw [entryAt_cons (by simp)] at hentry
  split at hentry
  · next h => exact .inr h
  · exact .inl ⟨e, hentry, hnolink⟩

/-- Create a folder in the folder a path leads to; fails if the name is no plain one or
there is an entry already. -/
def mkdir (fs : FileSystem α) (dir : String) (name : List Char) : FileSystem α × Bool :=
  match fs.resolve dir with
  | none => (fs, false)
  | some cs =>
    if h : (folderAt fs.entries cs = true ∧ PlainName name) ∧ (fs.entry (cs ++ [name])).isNone then
      (fs.makeFolder cs name h.1.1 h.1.2, true)
    else (fs, false)

/-! ### More entries -/

/-- The second file system has every entry of the first, and maybe more. -/
structure Grows (fs fs' : FileSystem α) : Prop where
  entries : ∀ cs e, fs.entry cs = some e → fs'.entry cs = some e
  current : fs'.current = fs.current

/-- What is looked up is found again when there are more entries. -/
theorem Grows.hop {fs fs' : FileSystem α} (h : Grows fs fs') {cur : List (List Char)}
    {c : List Char} {r : Hop} (hr : fs.hop cur c = some r) : fs'.hop cur c = some r := by
  have hfolder := folder_of_hop hr
  rw [FileSystem.hop, hfolder] at hr
  rw [FileSystem.hop, h.entries _ _ hfolder]
  dsimp only at hr ⊢
  split at hr
  · next hstay => rw [if_pos hstay, hr]
  · next hstay =>
    rw [if_neg hstay]
    split at hr
    · next hup => rw [if_pos hup, hr]
    · next hup =>
      rw [if_neg hup]
      cases he : fs.entry (cur ++ [c]) with
      | none => rw [he] at hr; cases hr
      | some e =>
        rw [he] at hr
        rw [h.entries _ _ he]
        exact hr

theorem Grows.walkWith {fs fs' : FileSystem α} (h : Grows fs fs')
    {follow follow' : List (List Char) → List (List Char) → Option (List (List Char))}
    (hfollow : ∀ {base todo r}, follow base todo = some r → follow' base todo = some r)
    {cur todo r : List (List Char)} (hr : fs.walkWith follow cur todo = some r) :
    fs'.walkWith follow' cur todo = some r := by
  induction todo generalizing cur with
  | nil => exact hr
  | cons c todo ih =>
    rw [FileSystem.walkWith] at hr ⊢
    split at hr
    · cases hr
    · next hhop =>
      rw [h.hop hhop]
      exact ih hr
    · next hhop =>
      rw [h.hop hhop]
      exact hfollow hr

theorem Grows.walk {fs fs' : FileSystem α} (h : Grows fs fs') {links : Nat}
    {cur todo r : List (List Char)} (hr : fs.walk links cur todo = some r) :
    fs'.walk links cur todo = some r := by
  induction links generalizing cur todo r with
  | zero => exact h.walkWith (fun hr => by cases hr) hr
  | succ links ih => exact h.walkWith (fun hr => ih hr) hr

/-- A path that leads somewhere leads there still. -/
theorem Grows.resolve {fs fs' : FileSystem α} (h : Grows fs fs') {p : String}
    {cs : List (List Char)} (hr : fs.resolve p = some cs) : fs'.resolve p = some cs := by
  rw [FileSystem.resolve] at hr ⊢
  rw [h.current]
  exact h.walk hr

theorem Grows.canonicalPath {fs fs' : FileSystem α} (h : Grows fs fs') {p : String}
    (hp : fs.canonicalPath p ≠ "") : fs'.canonicalPath p = fs.canonicalPath p := by
  rcases fs.canonicalPath_eq p with hempty | ⟨cs, -, hcs, hpath⟩
  · exact absurd hempty hp
  · rw [hpath, FileSystem.canonicalPath, h.resolve hcs]

/-- What a successful `mkdir` did. -/
theorem mkdir_cases {dir : String} {name : List Char} (h : (fs.mkdir dir name).2 = true) :
    ∃ cs, fs.resolve dir = some cs ∧ fs.entry cs = some .folder ∧ fs.entry (cs ++ [name]) = none ∧
      ∀ ds, (fs.mkdir dir name).1.entry ds =
        if ds = cs ++ [name] then some .folder else fs.entry ds := by
  cases hresolve : fs.resolve dir with
  | none =>
    rw [mkdir, hresolve] at h
    cases h
  | some cs =>
    rw [mkdir, hresolve] at h ⊢
    dsimp only at h ⊢
    split at h
    · next hnew =>
      rw [dif_pos hnew]
      refine ⟨cs, rfl, folderAt_iff.mp hnew.1.1, Option.isNone_iff_eq_none.mp hnew.2, ?_⟩
      intro ds
      exact entryAt_cons (by simp) _ _
    · cases h

/-- Nothing that was there is changed by `mkdir`. -/
theorem grows_mkdir (fs : FileSystem α) (dir : String) (name : List Char) :
    Grows fs (fs.mkdir dir name).1 := by
  constructor
  · intro ds e he
    cases hok : (fs.mkdir dir name).2 with
    | true =>
      obtain ⟨cs, -, -, hnone, hentry⟩ := mkdir_cases hok
      rw [hentry, if_neg, he]
      rintro rfl
      rw [hnone] at he
      cases he
    | false =>
      rw [mkdir] at hok ⊢
      split at hok
      · exact he
      · split at hok
        · cases hok
        · next hno => rwa [dif_neg hno]
  · rw [mkdir]
    split
    · rfl
    · split
      · rfl
      · rfl

/-- A folder that is created in a canonical folder is all that is new. -/
theorem canonicalPath_mkdir {dir p : String} {name : List Char} (hname : PlainName name)
    (hdir : Canonical dir) (hself : fs.canonicalPath dir = dir) (hp : Canonical p)
    (h : (fs.mkdir dir name).1.canonicalPath p = p) :
    fs.canonicalPath p = p ∨ p = child dir name := by
  have hresolve : fs.resolve dir = some (components dir) := by
    conv_lhs => rw [← hdir.render_components]
    exact resolve_render ((canonicalPath_self_iff hdir).mp hself)
  rw [mkdir, hresolve] at h
  dsimp only at h
  split at h
  · next hnew =>
    rw [canonicalPath_self_iff hp] at h
    -- The new folder has no entries, so a path that leads through it ends there.
    rcases real_makeFolder hnew.1.1 hnew.1.2 h with hreal | hnew
    · exact .inl ((canonicalPath_self_iff hp).mpr hreal)
    · refine .inr (hp.ext (hdir.child hname) ?_)
      rw [hnew, components_child hdir hname]
  · exact .inl h

/-- Names in a folder. -/
def names (fs : FileSystem α) (cs : List (List Char)) : List (List Char) :=
  (fs.entries.filterMap fun e => if e.1.dropLast = cs then e.1.getLast? else none).eraseDups

end FileSystem

end TiBackup.Lib
