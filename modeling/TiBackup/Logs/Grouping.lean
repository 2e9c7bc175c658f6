import TiBackup.Logs.Names

/-!
# TiBackup.Logs.Grouping

**The groups of the log view.** `runGroups` and `rsyncGroups` show every entry once, under
the name of its job: the groups are a partition of the entries, sorted by name, each with
the newest entry first. Both collect the entries in an object literal, so they throw as
soon as a job has the name of a member of `Object.prototype`, and on every other list they
are right (`runGroups_partition_iff`, `rsyncGroups_partition_iff`).
-/

namespace TiBackup.WebApp

open Lib

/-! ### The orders -/

theorem keyLe_iff (a b : String) : keyLe a b = true ↔ ¬ codeUnits b < codeUnits a := by
  rw [keyLe, decide_eq_true_eq]

theorem newestFirst_iff {α : Type} (date : α → String) (a b : α) :
    newestFirst date a b = true ↔ ¬ codeUnits (date a) < codeUnits (date b) := by
  rw [newestFirst, decide_eq_true_eq]

theorem not_lt_trans {xs ys zs : List Nat} (hxy : ¬ ys < xs) (hyz : ¬ zs < ys) : ¬ zs < xs :=
  List.not_lt.mpr (List.le_trans (List.not_lt.mp hxy) (List.not_lt.mp hyz))

theorem not_lt_total (xs ys : List Nat) : ¬ ys < xs ∨ ¬ xs < ys := by
  by_cases h : ys < xs
  · exact .inr (List.lt_asymm h)
  · exact .inl h

theorem totalOrders {α : Type} (date : α → String) : TotalOrders keyLe (newestFirst date) := by
  constructor
  case keyTrans =>
    intro a b c
    simp only [keyLe_iff]
    exact not_lt_trans
  case keyTotal =>
    intro a b
    simp only [Bool.or_eq_true, keyLe_iff]
    exact not_lt_total _ _
  case trans =>
    intro a b c
    simp only [newestFirst_iff]
    exact fun hab hbc => not_lt_trans hbc hab
  case total =>
    intro a b
    simp only [Bool.or_eq_true, newestFirst_iff]
    exact not_lt_total _ _

/-! ### The groups are a partition -/

/-- The run list is shown in groups by the name of the job. -/
def RunsPartitioned (runs : List RunEntry) : Prop :=
  ∃ gs, runGroups runs = some gs ∧
    IsGrouping RunEntry.name keyLe (newestFirst RunEntry.date) runs
      (gs.map fun g => (g.name, g.runs))

/-- The raw rsync logs are shown in groups by their job. -/
def RsyncPartitioned (rsyncRuns : List RsyncEntry) : Prop :=
  ∃ gs, rsyncGroups rsyncRuns = some gs ∧
    IsGrouping RsyncEntry.job keyLe (newestFirst RsyncEntry.date) rsyncRuns
      (gs.map fun g => (g.name, g.runs))

/-- Whatever record a group is shown as, the list is a partition unless collecting
throws. -/
theorem groups_partition_iff {α β : Type} {key : α → String} (date : α → String)
    {toGroup : String × List α → β} {ofGroup : β → String × List α}
    (hgroup : ∀ p, ofGroup (toGroup p) = p) (entries : List α) :
    (∃ gs, (groups objectPrototype key keyLe (newestFirst date) entries).map (List.map toGroup) =
        some gs ∧ IsGrouping key keyLe (newestFirst date) entries (gs.map ofGroup)) ↔
      ∀ x ∈ entries, key x ∉ objectPrototype := by
  rcases groups_cases (totalOrders date) entries with
    ⟨⟨x, hx, hmember⟩, hnone⟩ | ⟨hall, gs, hgs, hgrouping⟩
  · rw [hnone, Option.map_none]
    constructor
    · rintro ⟨gs, hgs, -⟩
      cases hgs
    · intro hall
      exact absurd hmember (hall x hx)
  · refine ⟨fun _ => hall, fun _ => ⟨gs.map toGroup, by rw [hgs, Option.map_some], ?_⟩⟩
    have hback : (gs.map toGroup).map ofGroup = gs := by
      rw [List.map_map, show ofGroup ∘ toGroup = id from funext hgroup, List.map_id]
    rwa [hback]

theorem runGroups_partition_iff (runs : List RunEntry) :
    RunsPartitioned runs ↔ ∀ r ∈ runs, r.name ∉ objectPrototype := by
  rw [RunsPartitioned, runGroups_eq]
  exact groups_partition_iff RunEntry.date (fun _ => rfl) runs

theorem rsyncGroups_partition_iff (rsyncRuns : List RsyncEntry) :
    RsyncPartitioned rsyncRuns ↔ ∀ r ∈ rsyncRuns, r.job ∉ objectPrototype := by
  rw [RsyncPartitioned, rsyncGroups]
  exact groups_partition_iff RsyncEntry.date (fun _ => rfl) rsyncRuns

/-- **The log view groups its entries** rightly exactly when no job among them has the
name of a member that every object has. -/
theorem logGroups_partition_iff (runs : List RunEntry) (rsyncRuns : List RsyncEntry) :
    (RunsPartitioned runs ↔ ∀ r ∈ runs, r.name ∉ objectPrototype) ∧
      (RsyncPartitioned rsyncRuns ↔ ∀ r ∈ rsyncRuns, r.job ∉ objectPrototype) :=
  ⟨runGroups_partition_iff runs, rsyncGroups_partition_iff rsyncRuns⟩

/-- **A job called `constructor`** takes both lists down. -/
theorem logGroups_constructor : validIdentifier "constructor" = true ∧
    runGroups [⟨"20240101-020000__constructor", "20240101-020000", "constructor"⟩] = none ∧
    rsyncGroups [⟨"constructor", "20240101-020000_0", "2024-01-01 02:00:00"⟩] = none ∧
    (¬ ∀ runs : List RunEntry, (∀ r ∈ runs, validIdentifier r.name = true) →
      RunsPartitioned runs) ∧
    ¬ ∀ rsyncRuns : List RsyncEntry, (∀ r ∈ rsyncRuns, validIdentifier r.job = true) →
      RsyncPartitioned rsyncRuns := by
  have haccepted : validIdentifier "constructor" = true := by decide +kernel
  refine ⟨haccepted, rfl, rfl, ?_, ?_⟩
  · intro hall
    obtain ⟨gs, hgs, -⟩ := hall [⟨"", "", "constructor"⟩]
      fun r hr => by obtain rfl := List.mem_singleton.mp hr; exact haccepted
    cases hgs
  · intro hall
    obtain ⟨gs, hgs, -⟩ := hall [⟨"constructor", "", ""⟩]
      fun r hr => by obtain rfl := List.mem_singleton.mp hr; exact haccepted
    cases hgs

end TiBackup.WebApp
