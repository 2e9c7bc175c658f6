import Mathlib.Data.List.Basic
import Mathlib.Data.List.Induction
import Mathlib.Tactic.Common

/-!
# TiBackup.Lib.Path

**Paths and their components.** A path is a string; what it names is decided by its
components, the pieces between slashes that are not empty. One path is at or below
another when its components begin with the other's (`Within`).

A *canonical* path is an absolute path without `.`, `..`, empty components or a trailing
slash. On canonical paths, and on no others, being below can be read off the spelling:
one path starts with the other and a slash (`Canonical.within_iff_prefix`). The root is
the exception, since it ends with a slash already.
-/

namespace TiBackup.Lib

namespace Path

/-- The pieces between the slashes; an absolute path begins with an empty one. -/
def pieces (p : String) : List (List Char) := p.toList.splitOn '/'

/-- The pieces that are not empty. -/
def components (p : String) : List (List Char) := (pieces p).filter fun c => !c.isEmpty

/-- What an entry of a folder can be called. -/
structure PlainName (c : List Char) : Prop where
  nonempty : c ≠ []
  noSlash : '/' ∉ c
  notDot : c ≠ ['.']
  notDotDot : c ≠ ['.', '.']

theorem plainName_iff {c : List Char} :
    PlainName c ↔ c ≠ [] ∧ '/' ∉ c ∧ c ≠ ['.'] ∧ c ≠ ['.', '.'] :=
  ⟨fun h => ⟨h.nonempty, h.noSlash, h.notDot, h.notDotDot⟩, fun h => ⟨h.1, h.2.1, h.2.2.1, h.2.2.2⟩⟩

instance (c : List Char) : Decidable (PlainName c) := decidable_of_iff' _ plainName_iff

/-- Each component behind a slash. -/
def slashed (cs : List (List Char)) : List Char := cs.flatMap fun c => '/' :: c

/-- The absolute path with these components. -/
def render (cs : List (List Char)) : String :=
  if cs.isEmpty then "/" else String.ofList (slashed cs)

/-- An absolute path without `.`, `..`, empty components or a trailing slash. -/
def Canonical (p : String) : Prop := ∃ cs, (∀ c ∈ cs, PlainName c) ∧ p = render cs

/-- The second path is the first or below it. -/
def Within (p q : String) : Prop := components p <+: components q

/-- The second path is below the first. -/
def Below (p q : String) : Prop := Within p q ∧ components p ≠ components q

/-- The folder a path is in; the root is in itself. -/
def parentFolder (p : String) : String := render (components p).dropLast

/-- The entry of that name in a folder. -/
def child (p : String) (name : List Char) : String := render (components p ++ [name])

/-! ### Splitting and rendering -/

theorem slashed_cons (c : List Char) (cs : List (List Char)) :
    slashed (c :: cs) = '/' :: (c ++ slashed cs) := rfl

theorem slashed_append (cs ds : List (List Char)) : slashed (cs ++ ds) = slashed cs ++ slashed ds :=
  List.flatMap_append

@[simp] theorem toList_render_cons (c : List Char) (cs : List (List Char)) :
    (render (c :: cs)).toList = slashed (c :: cs) := by
  simp [render]

/-- Between the slashes of a rendered path are its components. -/
theorem splitOn_slashed {c : List Char} {cs : List (List Char)} (hc : '/' ∉ c)
    (hcs : ∀ d ∈ cs, '/' ∉ d) : (c ++ slashed cs).splitOn '/' = c :: cs := by
  induction cs generalizing c with
  | nil => rw [slashed, List.flatMap_nil, List.append_nil, List.splitOn_eq_singleton hc]
  | cons d ds ih =>
    have hd : '/' ∉ d := hcs d (by simp)
    have hds : ∀ e ∈ ds, '/' ∉ e := fun e he => hcs e (by simp [he])
    rw [slashed_cons, List.splitOn_append_cons_self_of_not_mem hc, ih hd hds]

/-- A rendered path begins with an empty piece, and another one follows for the root. -/
theorem pieces_render {cs : List (List Char)} (h : ∀ c ∈ cs, PlainName c) :
    pieces (render cs) = [] :: if cs.isEmpty then [[]] else cs := by
  cases cs with
  | nil => decide
  | cons c cs =>
    rw [pieces, toList_render_cons]
    exact splitOn_slashed (c := []) List.not_mem_nil fun d hd => (h d hd).noSlash

theorem components_render {cs : List (List Char)} (h : ∀ c ∈ cs, PlainName c) :
    components (render cs) = cs := by
  rw [components, pieces_render h]
  cases cs with
  | nil => rfl
  | cons c cs =>
    refine (List.filter_cons_of_neg (by simp)).trans (List.filter_eq_self.mpr ?_)
    intro d hd
    simpa using (h d hd).nonempty

/-- What stands behind a slash adds its components. -/
theorem components_of_append_slash {p q : String} {rest : List Char}
    (h : q.toList = p.toList ++ '/' :: rest) :
    components q = components p ++ components (String.ofList rest) := by
  rw [components, components, components, pieces, pieces, pieces, h,
    List.splitOn_append_cons_self, List.filter_append, String.toList_ofList]

/-! ### Spellings of a path -/

@[simp] theorem components_empty : components "" = [] := by decide

/-- What stands behind the last slash is the last component, if it is not empty. -/
theorem components_of_last_slash {p : String} {front last : List Char}
    (h : p.toList = front ++ '/' :: last) (hlast : '/' ∉ last) :
    components p = components (String.ofList front) ++ if last.isEmpty then [] else [last] := by
  rw [components_of_append_slash (p := String.ofList front) (by rw [h, String.toList_ofList]),
    components, components, pieces, pieces, String.toList_ofList, String.toList_ofList,
    List.splitOn_eq_singleton hlast]
  cases last with
  | nil => rfl
  | cons c cs => rfl

theorem exists_last_slash {xs : List Char} (h : '/' ∈ xs) :
    ∃ front last, xs = front ++ '/' :: last ∧ '/' ∉ last := by
  obtain ⟨last, front, hrev, hlast⟩ := List.eq_append_cons_of_mem (List.mem_reverse.mpr h)
  refine ⟨front.reverse, last.reverse, ?_, by rwa [List.mem_reverse]⟩
  rw [← List.reverse_reverse xs, hrev]
  simp

/-- A path without components has slashes only. -/
theorem toList_eq_replicate_of_components_eq_nil {p : String} (h : components p = []) :
    p.toList = List.replicate p.toList.length '/' := by
  generalize hn : p.toList.length = n
  induction n using Nat.strongRecOn generalizing p with
  | _ n ih =>
    by_cases hslash : '/' ∈ p.toList
    · obtain ⟨front, last, hp, hlast⟩ := exists_last_slash hslash
      rw [components_of_last_slash hp hlast, List.append_eq_nil_iff] at h
      obtain ⟨hfront, hend⟩ := h
      have hlastnil : last = [] := by
        by_contra hne
        rw [if_neg (by simpa using hne)] at hend
        cases hend
      subst hlastnil
      have hlen : front.length + 1 = n := by rw [← hn, hp]; simp
      have hfront' := ih front.length (by omega) hfront (by rw [String.toList_ofList])
      rw [String.toList_ofList] at hfront'
      rw [hp, ← hlen, List.replicate_succ', ← hfront']
    · rw [components, pieces, List.splitOn_eq_singleton hslash] at h
      have hnil : p.toList = [] := by
        by_contra hne
        rw [List.filter_cons_of_pos (by simpa using hne)] at h
        cases h
      rw [← hn, hnil]
      rfl

/-- Every component stands behind one slash, only those before the first one may be
repeated, and there is none at the end. -/
def Tidy (p : String) : Prop :=
  ∃ n cs, (∀ c ∈ cs, c ≠ [] ∧ '/' ∉ c) ∧ p.toList = List.replicate n '/' ++ slashed cs

theorem slashed_concat (cs : List (List Char)) (c : List Char) :
    slashed (cs ++ [c]) = slashed cs ++ '/' :: c := by
  rw [slashed_append, slashed_cons, show slashed [] = [] from rfl, List.append_nil]

theorem components_of_tidy {p : String} {n : Nat} {cs : List (List Char)}
    (hcs : ∀ c ∈ cs, c ≠ [] ∧ '/' ∉ c) (h : p.toList = List.replicate n '/' ++ slashed cs) :
    components p = cs := by
  induction cs using List.reverseRecOn generalizing p with
  | nil =>
    rw [slashed, List.flatMap_nil, List.append_nil] at h
    induction n generalizing p with
    | zero =>
      have hempty : p = "" := String.toList_injective h
      rw [hempty, components_empty]
    | succ n ih =>
      rw [List.replicate_succ'] at h
      rw [components_of_last_slash h List.not_mem_nil, ih (String.toList_ofList)]
      rfl
  | append_singleton cs c ih =>
    obtain ⟨hne, hslash⟩ := hcs c (by simp)
    rw [slashed_concat, ← List.append_assoc] at h
    rw [components_of_last_slash h hslash, if_neg (by simpa using hne),
      ih (fun d hd => hcs d (by simp [hd])) String.toList_ofList]

/-! ### Canonical paths -/

theorem canonical_render {cs : List (List Char)} (h : ∀ c ∈ cs, PlainName c) :
    Canonical (render cs) := ⟨cs, h, rfl⟩

theorem canonical_root : Canonical "/" := ⟨[], by simp, rfl⟩

theorem Canonical.plain {p : String} (h : Canonical p) : ∀ c ∈ components p, PlainName c := by
  obtain ⟨cs, hcs, rfl⟩ := h
  rwa [components_render hcs]

/-- A canonical path is the one spelling of its components. -/
theorem Canonical.render_components {p : String} (h : Canonical p) :
    render (components p) = p := by
  obtain ⟨cs, hcs, rfl⟩ := h
  rw [components_render hcs]

theorem Canonical.ext {p q : String} (hp : Canonical p) (hq : Canonical q)
    (h : components p = components q) : p = q := by
  rw [← hp.render_components, h, hq.render_components]

theorem Canonical.ne_empty {p : String} (h : Canonical p) : p ≠ "" := by
  obtain ⟨cs, -, rfl⟩ := h
  intro hempty
  have hlist : (render cs).toList = [] := by rw [hempty]; rfl
  cases cs with
  | nil => cases hlist
  | cons c cs =>
    rw [toList_render_cons, slashed_cons] at hlist
    cases hlist

@[simp] theorem components_root : components "/" = [] := by decide

theorem Canonical.parentFolder {p : String} (h : Canonical p) : Canonical (parentFolder p) :=
  canonical_render fun c hc => h.plain c (List.dropLast_subset _ hc)

theorem Canonical.child {p : String} (h : Canonical p) {name : List Char} (hname : PlainName name) :
    Canonical (child p name) := by
  refine canonical_render ?_
  intro c hc
  rcases List.mem_append.mp hc with hc | hc
  · exact h.plain c hc
  · rwa [List.mem_singleton.mp hc]

@[simp] theorem components_parentFolder {p : String} (h : Canonical p) :
    components (Path.parentFolder p) = (components p).dropLast :=
  components_render fun c hc => h.plain c (List.dropLast_subset _ hc)

theorem components_child {p : String} (h : Canonical p) {name : List Char}
    (hname : PlainName name) : components (Path.child p name) = components p ++ [name] := by
  refine components_render ?_
  intro c hc
  rcases List.mem_append.mp hc with hc | hc
  · exact h.plain c hc
  · rwa [List.mem_singleton.mp hc]

/-! ### At or below -/

theorem Within.refl (p : String) : Within p p := List.prefix_refl _

/-- The folder of a path below another is still at or below it. -/
theorem Below.parentFolder {p q : String} (h : Below p q) (hq : Canonical q) :
    Within p (parentFolder q) := by
  obtain ⟨⟨rest, hrest⟩, hne⟩ := h
  have hnil : rest ≠ [] := fun hnil => hne (by rw [← hrest, hnil, List.append_nil])
  rw [Within, components_parentFolder hq, ← hrest, List.dropLast_append_of_ne_nil hnil]
  exact List.prefix_append ..

theorem Within.child_below {p q : String} (h : Within p q) (hq : Canonical q) {name : List Char}
    (hname : PlainName name) : Below p (child q name) := by
  constructor
  · rw [Within, components_child hq hname]
    exact List.IsPrefix.trans h (List.prefix_append ..)
  · intro heq
    have hlength := h.length_le
    rw [heq, components_child hq hname, List.length_append, List.length_singleton] at hlength
    omega

/-- A path that starts with another one and a slash is at or below it, canonical or
not. -/
theorem within_of_slash_prefix {p q : String} (h : p.toList ++ ['/'] <+: q.toList) :
    Within p q := by
  obtain ⟨rest, hrest⟩ := h
  rw [List.append_assoc, List.singleton_append] at hrest
  exact ⟨_, (components_of_append_slash hrest.symm).symm⟩

/-- The prefix that everything below a canonical path has. -/
def folderPrefix (p : String) : String := if p = "/" then p else p ++ "/"

theorem toList_folderPrefix {p : String} (h : Canonical p) :
    (folderPrefix p).toList = slashed (components p) ++ ['/'] := by
  obtain ⟨cs, hcs, rfl⟩ := h
  rw [components_render hcs, folderPrefix]
  cases cs with
  | nil => decide
  | cons c cs =>
    rw [if_neg, String.toList_append, toList_render_cons]
    · rfl
    · intro hroot
      have hnil : c :: cs = [] := by rw [← components_render hcs, hroot, components_root]
      cases hnil

/-- **Containment by spelling.** A canonical path is at or below another exactly when it
is the other or starts with its folder prefix. -/
theorem Canonical.within_iff_prefix {p q : String} (hp : Canonical p) (hq : Canonical q) :
    Within p q ↔ q = p ∨ (folderPrefix p).toList <+: q.toList := by
  constructor
  · rintro ⟨rest, hrest⟩
    cases rest with
    | nil => exact .inl (hq.ext hp (by rw [← hrest, List.append_nil]))
    | cons c cs =>
      right
      have hlist : q.toList = slashed (components p) ++ '/' :: (c ++ slashed cs) := by
        rw [← hq.render_components, ← hrest, ← slashed_cons, ← slashed_append]
        cases hcs : components p ++ c :: cs with
        | nil => simp at hcs
        | cons d ds => exact toList_render_cons d ds
      rw [toList_folderPrefix hp, hlist]
      exact ⟨c ++ slashed cs, by simp⟩
  · rintro (rfl | hprefix)
    · exact .refl q
    · by_cases hroot : p = "/"
      · rw [Within, hroot, components_root]
        exact List.nil_prefix
      · rw [folderPrefix, if_neg hroot, String.toList_append] at hprefix
        exact within_of_slash_prefix hprefix

end Path

end TiBackup.Lib
