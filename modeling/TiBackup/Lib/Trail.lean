import TiBackup.Lib.Machine
import TiBackup.Lib.Path

/-!
# TiBackup.Lib.Trail

**A walk through folders that somebody else lists.** Whoever asks for a path is shown a
folder, which need not be the one that was asked for: the path may be spelled differently,
lead through a link, or lead out of the base (`Folders`). What is relied on is that a folder
that was shown, and every folder it is in, is shown when it is asked for.

`Trail` is such a walk: the names that lead from the base to the folder that is shown, and
where the answers that are still to come will lead. Going up, or back along the trail, takes
names off; opening an entry adds one if the entry is a folder in its own right.
-/

namespace TiBackup.Lib

open TiBackup.Lib.Path

/-- Folders that are listed on request. -/
structure Folders where
  base : String
  /-- The folder that is shown for a path. -/
  resolve : String → String
  canonicalBase : Canonical base
  canonical : ∀ p, Canonical (resolve p)
  within : ∀ p, Within base (resolve p)
  /-- Between the base and a folder that is shown, every folder is shown when asked for. -/
  between : ∀ p q, Canonical q → Within base q → Within q (resolve p) → resolve q = q

namespace Folders

variable (F : Folders) {t u : List (List Char)} {p : String}

/-- Where names lead to from the base. -/
def path (t : List (List Char)) : String := render (components F.base ++ t)

/-- The names that lead to a path. -/
def names (p : String) : List (List Char) := (components p).drop (components F.base).length

/-- Everything along these names is shown when it is asked for. -/
structure Listed (t : List (List Char)) : Prop where
  plain : ∀ n ∈ t, PlainName n
  shown : ∀ u, u <+: t → F.resolve (F.path u) = F.path u

variable {F}

theorem plain_append (h : ∀ n ∈ t, PlainName n) : ∀ n ∈ components F.base ++ t, PlainName n := by
  intro n hn
  rcases List.mem_append.mp hn with hn | hn
  · exact F.canonicalBase.plain n hn
  · exact h n hn

theorem canonical_path (h : ∀ n ∈ t, PlainName n) : Canonical (F.path t) :=
  canonical_render (plain_append h)

theorem components_path (h : ∀ n ∈ t, PlainName n) :
    components (F.path t) = components F.base ++ t := components_render (plain_append h)

@[simp] theorem path_nil : F.path [] = F.base := by
  rw [path, List.append_nil, F.canonicalBase.render_components]

theorem names_path (h : ∀ n ∈ t, PlainName n) : F.names (F.path t) = t := by
  rw [names, components_path h, List.drop_left]

theorem path_names (hp : Canonical p) (h : Within F.base p) : F.path (F.names p) = p := by
  obtain ⟨rest, hrest⟩ := h
  rw [path, names, ← hrest, List.drop_left, hrest, hp.render_components]

theorem path_inj (ht : ∀ n ∈ t, PlainName n) (hu : ∀ n ∈ u, PlainName n)
    (h : F.path t = F.path u) : t = u := by
  rw [← names_path ht, h, names_path hu]

theorem within_path (ht : ∀ n ∈ t, PlainName n) (hu : ∀ n ∈ u, PlainName n) (h : u <+: t) :
    Within (F.path u) (F.path t) := by
  rw [Within, components_path ht, components_path hu]
  exact List.prefix_append_right_inj _ |>.mpr h

theorem plain_names (hp : Canonical p) : ∀ n ∈ F.names p, PlainName n :=
  fun n hn => hp.plain n (List.drop_subset _ _ hn)

theorem Listed.of_prefix (h : F.Listed t) (hu : u <+: t) : F.Listed u where
  plain n hn := h.plain n (hu.subset hn)
  shown v hv := h.shown v (hv.trans hu)

/-- Whatever is shown is listed. -/
theorem listed_resolve (p : String) : F.Listed (F.names (F.resolve p)) where
  plain := plain_names (F.canonical p)
  shown u hu := by
    have hplain := plain_names (F := F) (F.canonical p)
    have hu' : ∀ n ∈ u, PlainName n := fun n hn => hplain n (hu.subset hn)
    have hbelow := within_path (F := F) hplain hu' hu
    rw [path_names (F.canonical p) (F.within p)] at hbelow
    have hbase : Within F.base (F.path u) := by
      rw [Within, components_path hu']
      exact List.prefix_append _ _
    exact F.between p _ (canonical_path hu') hbase hbelow

theorem Listed.names_resolve (h : F.Listed t) : F.names (F.resolve (F.path t)) = t := by
  rw [h.shown t List.prefix_rfl, names_path h.plain]

end Folders

/-! ### The trail -/

/-- The names that lead to the folder that is shown, and those that lead to the folders
whose answers are under way. -/
structure Trail where
  here : List (List Char) := []
  asked : List (List (List Char)) := []

/-- What can be done about a trail. -/
inductive Move
  /-- Ask for the folder this one is in. -/
  | up
  /-- Ask for the folder after so many names. -/
  | back (i : Nat)
  /-- Ask for the folder again. -/
  | again
  /-- Ask for an entry of the folder. -/
  | enter (name : List Char)
  /-- Ask for a path. -/
  | visit (p : String)
  /-- An answer arrives. -/
  | arrived (i : Nat)
  /-- There is no answer. -/
  | failed (i : Nat)

namespace Trail

/-- What is asked for is added to what is under way. -/
def ask (t : Trail) (u : List (List Char)) : Trail := { t with asked := t.asked ++ [u] }

/-- One move. A path may be changed by `send` on the way to whoever lists the folders. -/
def step (F : Folders) (send : String → String) (t : Trail) : Move → Trail
  | .up => if t.here = [] then t else t.ask t.here.dropLast
  | .back i => if i ≤ t.here.length then t.ask (t.here.take i) else t
  | .again => t.ask t.here
  | .enter name => t.ask (F.names (F.resolve (send (F.path (t.here ++ [name])))))
  | .visit p => t.ask (F.names (F.resolve (send p)))
  | .arrived i =>
    match t.asked[i]? with
    | some u => { here := u, asked := t.asked.eraseIdx i }
    | none => t
  | .failed i => { t with asked := t.asked.eraseIdx i }

/-- The trail as a machine. -/
def machine (F : Folders) (send : String → String) : Machine Trail Move Unit where
  step t m := (step F send t m, ())

/-- Everything along the trail is listed. -/
structure Sound (F : Folders) (t : Trail) : Prop where
  here : F.Listed t.here
  asked : ∀ u ∈ t.asked, F.Listed u

variable {F : Folders} {send : String → String} {t : Trail}

theorem Sound.ask (h : t.Sound F) {u : List (List Char)} (hu : F.Listed u) : (t.ask u).Sound F where
  here := h.here
  asked v hv := by
    rcases List.mem_append.mp hv with hv | hv
    · exact h.asked v hv
    · rwa [List.mem_singleton.mp hv]

end Trail

end TiBackup.Lib
