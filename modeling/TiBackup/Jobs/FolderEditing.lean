import TiBackup.Lib.EntryList
import TiBackup.Model.FolderEditor

/-!
# TiBackup.Jobs.FolderEditing

**Editing folder pairs touches only the pair that was opened.** The editor remembers the
position of the pair it edits, and the list changes under it. `FolderTable` is what the editor
is for: pairs that can be told apart wherever they are, one of which may be open. Step by step
the editor shows the table (`ShowsTable.step`): its index is the position of the open pair, so what
is saved replaces that pair or, when none is open, comes as a new one
(`folderEdits_exact`).
-/

namespace TiBackup

open Lib Lib.Machine

/-! ### What it is for -/

/-- The pairs of a job, the number of the one that is open, and the form. -/
structure FolderTable where
  pairs : EntryList FolderPair := .emptyAt 0
  opened : Option Nat := none
  folderSource : String := ""
  folderDest : String := ""

namespace FolderTable

/-- Nothing is open. -/
def closed (t : FolderTable) : FolderTable :=
  { t with opened := none, folderSource := "", folderDest := "" }

/-- The form is saved: in the pair that is open, or as a new one. -/
def save (t : FolderTable) (f : FolderPair) : FolderTable :=
  match t.opened with
  | some n => closed { t with pairs := t.pairs.replace n f }
  | none => closed { t with pairs := t.pairs.push f }

/-- One event; a row is picked by its position, which stands for the pair that is there. -/
def step (t : FolderTable) : FolderEvent → FolderTable
  | .input source dest => { t with folderSource := source, folderDest := dest }
  | .addFolder =>
    let f : FolderPair := ⟨trimText t.folderSource, trimText t.folderDest⟩
    if f.source = "" ∨ f.dest = "" then t else t.save f
  | .editFolder i =>
    match t.pairs.numberAt i, t.pairs.values[i]? with
    | some n, some f => { t with opened := some n, folderSource := f.source, folderDest := f.dest }
    | _, _ => t
  | .removeFolder i =>
    match t.pairs.numberAt i with
    | some n =>
      let t := { t with pairs := t.pairs.erase n }
      if t.opened = some n then t.closed else t
    | none => t
  | .cancelFolderEdit => t.closed
  | .newJob => closed { t with pairs := .emptyAt t.pairs.fresh }
  | .editJob answer =>
    match answer with
    | some dirs => closed { t with pairs := (EntryList.emptyAt t.pairs.fresh).pushAll dirs }
    | none => t

def machine : Machine FolderTable FolderEvent Unit where
  step t e := (t.step e, ())

end FolderTable

/-! ### The editor shows the table -/

/-- The index is the position of the pair that is open, and -1 when none is. -/
def Designates (t : FolderTable) (index : Int) : Prop :=
  match t.opened with
  | some n => ∃ i : Nat, index = i ∧ t.pairs.numberAt i = some n
  | none => index = -1

structure ShowsTable (s : FolderEditor) (t : FolderTable) : Prop where
  dirs : s.backupdirs = t.pairs.values
  source : s.folderSource = t.folderSource
  dest : s.folderDest = t.folderDest
  index : Designates t s.folderEditIndex

/-- A row that is picked is there. -/
def FolderEditor.Valid (s : FolderEditor) : FolderEvent → Prop
  | .editFolder i | .removeFolder i => i < s.backupdirs.length
  | _ => True

instance (s : FolderEditor) : (e : FolderEvent) → Decidable (s.Valid e)
  | .editFolder i | .removeFolder i => inferInstanceAs (Decidable (i < s.backupdirs.length))
  | .input _ _ | .addFolder | .cancelFolderEdit | .newJob | .editJob _ =>
    inferInstanceAs (Decidable True)

/-! ### One event -/

theorem splice_singleton {α : Type} {xs : List α} {i : Nat} (h : i < xs.length) (x : α) :
    splice xs i 1 [x] = xs.set i x := by
  rw [splice, List.set_eq_take_append_cons_drop, if_pos h, List.append_assoc,
    List.singleton_append]

theorem splice_nil {α : Type} (xs : List α) (i : Nat) : splice xs i 1 [] = xs.eraseIdx i := by
  rw [splice, List.append_nil, List.eraseIdx_eq_take_drop_succ]

/-- With the same pairs, a form that is reset shows that nothing is open. -/
theorem shows_closed {s : FolderEditor} {t : FolderTable} (h : s.backupdirs = t.pairs.values) :
    ShowsTable s.resetFolderForm t.closed := ⟨h, rfl, rfl, rfl⟩

/-- Is the form not filled in? -/
def FolderEditor.Rejected (s : FolderEditor) : Prop :=
  trimText s.folderSource = "" ∨ trimText s.folderDest = ""

instance (s : FolderEditor) : Decidable s.Rejected := inferInstanceAs (Decidable (_ ∨ _))

/-- The pair in the form. -/
def FolderEditor.formPair (s : FolderEditor) : FolderPair :=
  ⟨trimText s.folderSource, trimText s.folderDest⟩

theorem FolderEditor.addFolder_of_rejected {s : FolderEditor} (h : s.Rejected) :
    s.addFolder = s := by
  have hblank : ((trimText s.folderSource).isEmpty || (trimText s.folderDest).isEmpty) = true := by
    simpa [Rejected] using h
  simp only [addFolder, hblank, if_true]

/-- What saving does to the list. -/
theorem FolderEditor.addFolder_eq {s : FolderEditor} (h : ¬ s.Rejected) : s.addFolder =
    if s.folderEditIndex ≥ 0 then
      { s with backupdirs := splice s.backupdirs s.folderEditIndex.toNat 1 [s.formPair] }.resetFolderForm
    else { s with backupdirs := s.backupdirs ++ [s.formPair] }.resetFolderForm := by
  have hfilled : ((trimText s.folderSource).isEmpty || (trimText s.folderDest).isEmpty) = false := by
    simpa [Rejected, not_or] using h
  simp only [addFolder, hfilled, Bool.false_eq_true, if_false]
  rfl

/-- With an open pair, saving puts the form in its place. -/
theorem ShowsTable.addFolder_opened {s : FolderEditor} {t : FolderTable} (h : ShowsTable s t)
    (hfilled : ¬ s.Rejected) {n : Nat} (hopened : t.opened = some n) :
    ∃ i : Nat, s.folderEditIndex = i ∧ t.pairs.numberAt i = some n ∧ i < s.backupdirs.length ∧
      s.addFolder = { s with backupdirs := s.backupdirs.set i s.formPair }.resetFolderForm := by
  have hindex := h.index
  rw [Designates, hopened] at hindex
  obtain ⟨i, hi, hn⟩ := hindex
  have hlt : i < s.backupdirs.length := h.dirs ▸ EntryList.lt_length_of_numberAt hn
  refine ⟨i, hi, hn, hlt, ?_⟩
  rw [FolderEditor.addFolder_eq hfilled, hi, if_pos (Int.natCast_nonneg i), Int.toNat_natCast,
    splice_singleton hlt]

/-- Without one, it puts the form at the end. -/
theorem ShowsTable.addFolder_closed {s : FolderEditor} {t : FolderTable} (h : ShowsTable s t)
    (hfilled : ¬ s.Rejected) (hclosed : t.opened = none) :
    s.addFolder = { s with backupdirs := s.backupdirs ++ [s.formPair] }.resetFolderForm := by
  have hindex := h.index
  rw [Designates, hclosed] at hindex
  rw [FolderEditor.addFolder_eq hfilled, hindex, if_neg (by decide)]

theorem ShowsTable.addFolder {s : FolderEditor} {t : FolderTable} (h : ShowsTable s t) :
    ShowsTable s.addFolder (t.step .addFolder) := by
  have hstep : t.step .addFolder = if s.Rejected then t else t.save s.formPair := by
    simp only [FolderTable.step, ← h.source, ← h.dest]
    rfl
  rw [hstep]
  by_cases hrejected : s.Rejected
  · rw [FolderEditor.addFolder_of_rejected hrejected, if_pos hrejected]
    exact h
  · rw [if_neg hrejected, FolderTable.save]
    cases hopened : t.opened with
    | some n =>
      obtain ⟨i, -, hn, -, heq⟩ := h.addFolder_opened hrejected hopened
      rw [heq]
      exact shows_closed (by rw [EntryList.values_replace hn, h.dirs])
    | none =>
      rw [h.addFolder_closed hrejected hopened]
      exact shows_closed (by rw [EntryList.values_push, h.dirs])

theorem ShowsTable.editFolder {s : FolderEditor} {t : FolderTable} (h : ShowsTable s t) (i : Nat) :
    ShowsTable (s.editFolder i) (t.step (.editFolder i)) := by
  simp only [FolderTable.step, FolderEditor.editFolder, h.dirs]
  cases hvalue : t.pairs.values[i]? with
  | none =>
    cases t.pairs.numberAt i <;> exact h
  | some f =>
    obtain ⟨hlt, -⟩ := List.getElem?_eq_some_iff.mp hvalue
    obtain ⟨n, hn⟩ := EntryList.exists_numberAt hlt
    rw [hn]
    exact ⟨rfl, rfl, rfl, i, rfl, hn⟩

theorem ShowsTable.removeFolder {s : FolderEditor} {t : FolderTable} (h : ShowsTable s t) {i : Nat}
    (hi : i < s.backupdirs.length) : ShowsTable (s.removeFolder i) (t.step (.removeFolder i)) := by
  obtain ⟨n, hn⟩ := EntryList.exists_numberAt (h.dirs ▸ hi)
  have hdirs : splice s.backupdirs i 1 [] = (t.pairs.erase n).values := by
    rw [splice_nil, h.dirs, EntryList.values_erase hn]
  have hindex := h.index
  rw [Designates] at hindex
  simp only [FolderTable.step, FolderEditor.removeFolder, hn]
  cases hopened : t.opened with
  | none =>
    rw [hopened] at hindex
    rw [hindex, if_neg (by omega), if_neg (by omega), if_neg (by simp)]
    exact ⟨hdirs, h.source, h.dest, rfl⟩
  | some m =>
    rw [hopened] at hindex
    obtain ⟨k, hk, hm⟩ := hindex
    by_cases hki : k = i
    · -- The open pair is removed.
      subst hki
      obtain rfl := Option.some.inj (hm.symm.trans hn)
      rw [hk, if_pos rfl, if_pos rfl]
      exact shows_closed hdirs
    · have hmn : m ≠ n := fun heq => hki (EntryList.position_unique hn (heq ▸ hm))
      have hmoved := EntryList.numberAt_erase hn hm hki
      rw [hk, if_neg (by omega), if_neg (fun heq => hmn (Option.some.inj heq))]
      split
      · next hlt =>
        -- A pair before it is removed: the open pair moves up.
        rw [if_pos (by omega)] at hmoved
        have hprev : (k : Int) - 1 = (k - 1 : Nat) := by omega
        exact ⟨hdirs, h.source, h.dest, k - 1, hprev, hmoved⟩
      · next hge =>
        rw [if_neg (by omega)] at hmoved
        exact ⟨hdirs, h.source, h.dest, k, rfl, hmoved⟩

/-- **One event** keeps the two in step. -/
theorem ShowsTable.step {s : FolderEditor} {t : FolderTable} (h : ShowsTable s t) {e : FolderEvent}
    (he : s.Valid e) : ShowsTable (s.step e) (t.step e) := by
  cases e with
  | input source dest => exact ⟨h.dirs, rfl, rfl, h.index⟩
  | addFolder => exact h.addFolder
  | editFolder i => exact h.editFolder i
  | removeFolder i => exact h.removeFolder he
  | cancelFolderEdit => exact shows_closed h.dirs
  | newJob => exact ⟨rfl, rfl, rfl, rfl⟩
  | editJob answer =>
    cases answer with
    | none => exact h
    | some dirs => exact ⟨(EntryList.values_pushAll (.emptyAt t.pairs.fresh) dirs).symm, rfl, rfl, rfl⟩

/-! ### Runs -/

/-- What adding the form does: nothing when it is not filled in, and otherwise one pair is
replaced or added, the one that is open or a new one. -/
structure AddsOnly (s s' : FolderEditor) (t : FolderTable) : Prop where
  rejected : s.Rejected →
    s'.backupdirs = s.backupdirs ∧ s'.folderEditIndex = s.folderEditIndex
  replaced : ¬ s.Rejected → ∀ n, t.opened = some n → ∃ i : Nat, s.folderEditIndex = i ∧
    t.pairs.numberAt i = some n ∧ i < s.backupdirs.length ∧
    s'.backupdirs = s.backupdirs.set i s.formPair
  added : ¬ s.Rejected → t.opened = none → s'.backupdirs = s.backupdirs ++ [s.formPair]

theorem ShowsTable.addsOnly {s : FolderEditor} {t : FolderTable} (h : ShowsTable s t) :
    AddsOnly s s.addFolder t := by
  constructor
  · intro hrejected
    rw [FolderEditor.addFolder_of_rejected hrejected]
    exact ⟨rfl, rfl⟩
  · intro hfilled n hopened
    obtain ⟨i, hi, hn, hlt, heq⟩ := h.addFolder_opened hfilled hopened
    exact ⟨i, hi, hn, hlt, by rw [heq]; rfl⟩
  · intro hfilled hclosed
    rw [h.addFolder_closed hfilled hclosed]
    rfl

/-- **The editor edits the pair that was opened.** After any events, each on a row that was
there, the index is the position of the pair that is open, wherever other pairs have gone, and
what is saved goes there or to the end of the list. -/
theorem folderEdits_exact {events : List FolderEvent}
    (hvalid : FolderEditor.machine.Along FolderEditor.Valid {} events) :
    ShowsTable (FolderEditor.machine.run {} events) (FolderTable.machine.run {} events) ∧
      AddsOnly (FolderEditor.machine.run {} events)
        (FolderEditor.machine.run {} events).addFolder (FolderTable.machine.run {} events) := by
  have hshows : ShowsTable (FolderEditor.machine.run {} events) (FolderTable.machine.run {} events) :=
    related_run (fun _ _ _ h he => h.step he) ⟨rfl, rfl, rfl, rfl⟩ hvalid
  exact ⟨hshows, hshows.addsOnly⟩

/-- Two pairs are added, the second is opened, the first removed. -/
def editedRun : List FolderEvent :=
  [.newJob, .input "/a" "/x", .addFolder, .input "/b" "/y", .addFolder, .editFolder 1,
    .removeFolder 0, .input "/c" "/z"]

theorem folderEdits_exact_editedRun : FolderEditor.machine.Along FolderEditor.Valid {} editedRun ∧
    AddsOnly (FolderEditor.machine.run {} editedRun)
      (FolderEditor.machine.run {} editedRun).addFolder (FolderTable.machine.run {} editedRun) := by
  have hvalid : FolderEditor.machine.Along FolderEditor.Valid {} editedRun := by decide
  exact ⟨hvalid, (folderEdits_exact hvalid).2⟩

end TiBackup
