import TiBackup.Lib.Path

/-!
# TiBackup.Lib.Normalize

**Path normalisation.** Reading a path piece by piece from a starting folder: an empty
piece and `.` stay where they are, `..` goes to the folder above, and any other piece goes
into the folder of that name. What is reached is a `Place`. An absolute path cannot go above
the root; a relative one can leave the folder it starts in, and `up` counts how often.

Nothing here looks at a file system. Two spellings with one place name the same file as
long as no link is on the way, and this is what `..` means to a reader of the path.

A path that is read on from a place *stays inside* when it never goes above that place
(`staysInside`). Such a path only adds names (`Place.go_of_staysInside`), the same ones
wherever it is read from.
-/

namespace TiBackup.Lib.Path

/-- Where a path leads: from the root or from the current folder, so many folders up, and
down through these names. -/
structure Place where
  absolute : Bool
  up : Nat
  names : List (List Char)
  deriving DecidableEq, Repr

/-- The piece that stays where it is. -/
def isStay (c : List Char) : Bool := c.isEmpty || c = ['.']

/-- The piece that goes up. -/
def isUp (c : List Char) : Bool := c = ['.', '.']

namespace Place

/-- The entry of that name in a place. -/
def child (p : Place) (c : List Char) : Place := { p with names := p.names ++ [c] }

/-- The place below, through these names. -/
def below (p : Place) (cs : List (List Char)) : Place := { p with names := p.names ++ cs }

/-- The folder a place is in. -/
def parent (p : Place) : Place :=
  if p.names.isEmpty then (if p.absolute then p else { p with up := p.up + 1 })
  else { p with names := p.names.dropLast }

/-- One piece of a path. -/
def step (p : Place) (c : List Char) : Place :=
  if isStay c then p else if isUp c then p.parent else p.child c

/-- A path read from a place on. -/
def go (p : Place) (cs : List (List Char)) : Place := cs.foldl step p

/-- A place is a direct child of another one: an entry of it with a name of its own. -/
def ChildOf (q p : Place) : Prop := ∃ c, PlainName c ∧ q = p.child c

end Place

/-- The place a path begins at. -/
def origin (s : String) : Place := ⟨s.toList.head? = some '/', 0, []⟩

/-- The place a path leads to. -/
def place (s : String) : Place := (origin s).go (pieces s)

/-- The pieces never go above a place that is `depth` folders above the first of them. -/
def staysFrom : Nat → List (List Char) → Bool
  | _, [] => true
  | depth, c :: cs =>
      if isStay c then staysFrom depth cs
      else if isUp c then 0 < depth && staysFrom (depth - 1) cs
      else staysFrom (depth + 1) cs

/-- The pieces never go above where they start. -/
def staysInside (cs : List (List Char)) : Bool := staysFrom 0 cs

/-- The names that are left of pieces that stay inside. -/
def inner (cs : List (List Char)) : List (List Char) := ((⟨false, 0, []⟩ : Place).go cs).names

example : place "/mnt//disk/./a/../b" = ⟨true, 0, ["mnt".toList, "disk".toList, "b".toList]⟩ := by
  decide
example : place "../../x" = ⟨false, 2, ["x".toList]⟩ := by decide

/-! ### One piece -/

theorem PlainName.not_isStay {c : List Char} (h : PlainName c) : isStay c = false := by
  simp [isStay, h.nonempty, h.notDot]

theorem PlainName.not_isUp {c : List Char} (h : PlainName c) : isUp c = false := by
  simp [isUp, h.notDotDot]

namespace Place

@[simp] theorem go_nil (p : Place) : p.go [] = p := rfl

@[simp] theorem go_cons (p : Place) (c : List Char) (cs : List (List Char)) :
    p.go (c :: cs) = (p.step c).go cs := rfl

theorem go_append (p : Place) (cs ds : List (List Char)) : p.go (cs ++ ds) = (p.go cs).go ds :=
  List.foldl_append

theorem step_of_isStay {p : Place} {c : List Char} (h : isStay c = true) : p.step c = p := by
  rw [step, if_pos h]

theorem step_plain (p : Place) {c : List Char} (h : PlainName c) : p.step c = p.child c := by
  rw [step, if_neg (by simp [h.not_isStay]), if_neg (by simp [h.not_isUp])]

theorem childOf_child (p : Place) {c : List Char} (h : PlainName c) : (p.child c).ChildOf p :=
  ⟨c, h, rfl⟩

/-- A child is one name deeper. -/
theorem ChildOf.length {p q : Place} (h : q.ChildOf p) :
    q.names.length = p.names.length + 1 := by
  obtain ⟨c, -, rfl⟩ := h
  simp [child]

theorem below_nil (p : Place) : p.below [] = p := by simp [below]

theorem child_below (p : Place) (cs : List (List Char)) (c : List Char) :
    (p.below cs).child c = p.below (cs ++ [c]) := by simp [below, child]

/-- The folder above something below a place is still at or below it. -/
theorem parent_below (p : Place) {cs : List (List Char)} (h : cs ≠ []) :
    (p.below cs).parent = p.below cs.dropLast := by
  simp [below, parent, h, List.dropLast_append_of_ne_nil]

end Place

/-! ### Paths put together -/

theorem splitOn_slash_cons (cs : List Char) :
    ('/' :: cs).splitOn '/' = [] :: cs.splitOn '/' :=
  @List.splitOn_append_cons_self_of_not_mem _ [] _ _ _ List.not_mem_nil cs

/-- A piece is no longer than the text it is a piece of. -/
theorem length_le_of_mem_splitOn {c cs : List Char} (h : c ∈ cs.splitOn '/') :
    c.length ≤ cs.length := by
  induction cs generalizing c with
  | nil =>
    rw [List.splitOn_nil, List.mem_singleton] at h
    exact Nat.le_of_eq (congrArg List.length h)
  | cons d ds ih =>
    rw [List.splitOn_cons_eq_if_modifyHead] at h
    split at h
    · rcases List.mem_cons.mp h with rfl | hmem
      · simp
      · exact Nat.le_succ_of_le (ih hmem)
    · cases hsplit : ds.splitOn '/' with
      | nil => exact absurd hsplit (List.splitOn_ne_nil _ _)
      | cons e es =>
        rw [hsplit] at h ih
        rcases List.mem_cons.mp h with rfl | hmem
        · exact Nat.succ_le_succ (ih List.mem_cons_self)
        · exact Nat.le_succ_of_le (ih (List.mem_cons_of_mem _ hmem))

theorem pieces_append_slash (p q : String) : pieces (p ++ "/" ++ q) = pieces p ++ pieces q := by
  have hslash : (p ++ "/" ++ q).toList = p.toList ++ '/' :: q.toList := by
    simp [String.toList_append]
  rw [pieces, pieces, pieces, hslash, List.splitOn_append_cons_self]

theorem pieces_of_noSlash {s : String} (h : '/' ∉ s.toList) : pieces s = [s.toList] :=
  List.splitOn_eq_singleton h

theorem origin_append {p : String} (h : p ≠ "") (q : String) : origin (p ++ q) = origin p := by
  have hne : p.toList ≠ [] := fun hnil => h (String.toList_injective hnil)
  cases hlist : p.toList with
  | nil => exact absurd hlist hne
  | cons c cs => simp [origin, String.toList_append, hlist]

/-- What stands behind a slash is read on from the place before it. -/
theorem place_append_slash {p : String} (h : p ≠ "") (q : String) :
    place (p ++ "/" ++ q) = (place p).go (pieces q) := by
  rw [place, pieces_append_slash, String.append_assoc, origin_append h, Place.go_append, place]

/-- A path that goes on with a slash is read on from the place before it. -/
theorem place_of_append {m p : String} (hm : m ≠ "") {rest : List Char}
    (h : p.toList = m.toList ++ rest) (hrest : rest = [] ∨ rest.head? = some '/') :
    place p = (place m).go (rest.splitOn '/') := by
  rcases hrest with rfl | hslash
  · have hp : p = m := String.toList_injective (by rw [h, List.append_nil])
    rw [hp]
    rfl
  · obtain ⟨tail, rfl⟩ := List.head?_eq_some_iff.mp hslash
    have hp : p = m ++ "/" ++ String.ofList tail := by
      refine String.toList_injective ?_
      rw [h]
      simp [String.toList_append]
    rw [hp, place_append_slash hm, splitOn_slash_cons, Place.go_cons,
      Place.step_of_isStay (by decide), pieces, String.toList_ofList]

/-! ### Staying inside -/

/-- **Frame.** Pieces that do not go above a place change nothing of it, and what they add
is the same wherever they are read. -/
theorem Place.go_below (p q : Place) {cs xs : List (List Char)}
    (h : staysFrom xs.length cs = true) :
    ∃ ys, (p.below xs).go cs = p.below ys ∧ (q.below xs).go cs = q.below ys := by
  induction cs generalizing xs with
  | nil => exact ⟨xs, rfl, rfl⟩
  | cons c cs ih =>
    rw [staysFrom] at h
    rw [Place.go_cons, Place.go_cons]
    by_cases hstay : isStay c = true
    · rw [if_pos hstay] at h
      rw [Place.step_of_isStay hstay, Place.step_of_isStay hstay]
      exact ih h
    · rw [if_neg hstay] at h
      rw [Place.step, Place.step, if_neg hstay, if_neg hstay]
      by_cases hup : isUp c = true
      · rw [if_pos hup, Bool.and_eq_true, decide_eq_true_eq] at h
        rw [if_pos hup, if_pos hup]
        have hne : xs ≠ [] := List.length_pos_iff.mp h.1
        rw [Place.parent_below p hne, Place.parent_below q hne]
        exact ih (by rw [List.length_dropLast]; exact h.2)
      · rw [if_neg hup] at h
        rw [if_neg hup, if_neg hup, Place.child_below, Place.child_below]
        exact ih (by rw [List.length_append]; exact h)

/-- Pieces that stay inside lead to the same names below every place. -/
theorem Place.go_of_staysInside (p : Place) {cs : List (List Char)} (h : staysInside cs = true) :
    p.go cs = p.below (inner cs) := by
  obtain ⟨ys, hp, hinner⟩ := @Place.go_below p ⟨false, 0, []⟩ cs [] h
  rw [Place.below_nil] at hp hinner
  rw [hp, inner, hinner]
  simp [Place.below]

/-- The names of the place reached are names of the place before or pieces of the path. -/
theorem Place.mem_names_go {p : Place} {cs : List (List Char)} {c : List Char}
    (h : c ∈ (p.go cs).names) : c ∈ p.names ∨ c ∈ cs := by
  induction cs generalizing p with
  | nil => exact .inl h
  | cons d ds ih =>
    rw [Place.go_cons] at h
    rcases ih h with hmem | hmem
    · by_cases hd : c = d
      · exact .inr (by simp [hd])
      · left
        simp only [Place.step, Place.parent, Place.child] at hmem
        split_ifs at hmem
        · exact hmem
        · exact hmem
        · exact hmem
        · exact List.dropLast_subset _ hmem
        · rcases List.mem_append.mp hmem with hmem | hmem
          · exact hmem
          · exact absurd (List.mem_singleton.mp hmem) hd
    · exact .inr (List.mem_cons_of_mem _ hmem)

/-- A name that no piece spells is gone for good once the path has left its folder. -/
theorem Place.staysFrom_of_mem {p : Place} {z : List Char} {cs xs : List (List Char)}
    (hp : z ∉ p.names) (hxs : z ∉ xs) (hcs : z ∉ cs)
    (h : z ∈ ((p.below (z :: xs)).go cs).names) : staysFrom xs.length cs = true := by
  induction cs generalizing xs with
  | nil => rfl
  | cons c cs ih =>
    rw [Place.go_cons] at h
    rw [staysFrom]
    have hrest : z ∉ cs := fun hmem => hcs (List.mem_cons_of_mem _ hmem)
    by_cases hstay : isStay c = true
    · rw [Place.step_of_isStay hstay] at h
      rw [if_pos hstay]
      exact ih hxs hrest h
    · rw [Place.step, if_neg hstay] at h
      rw [if_neg hstay]
      by_cases hup : isUp c = true
      · rw [if_pos hup, Place.parent_below p (by simp)] at h
        rw [if_pos hup, Bool.and_eq_true, decide_eq_true_eq]
        cases hnil : xs with
        | nil =>
            -- this piece leaves the folder `z`, and nothing enters it again
            rw [hnil] at h
            rcases Place.mem_names_go h with hmem | hmem
            · exact absurd (by simpa [Place.below] using hmem) hp
            · exact absurd hmem hrest
        | cons x ys =>
            rw [hnil, List.dropLast_cons_of_ne_nil (by simp)] at h
            refine ⟨by simp, ?_⟩
            have hdrop := ih (fun hmem => hxs (hnil ▸ List.dropLast_subset _ hmem)) hrest h
            simpa using hdrop
      · rw [if_neg hup, Place.child_below] at h
        rw [if_neg hup]
        have hadd : z ∉ xs ++ [c] := by
          intro hmem
          rcases List.mem_append.mp hmem with hmem | hmem
          · exact hxs hmem
          · exact hcs (by simp [List.mem_singleton.mp hmem])
        have hlong := ih hadd hrest h
        rwa [List.length_append, List.length_singleton] at hlong

end TiBackup.Lib.Path
