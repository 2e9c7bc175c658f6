import TiBackup.Model.RunLog

/-!
# TiBackup.Logs.Reads

**What a handler reads of a growing log.** While a request is under way the log only
grows, so what the handler noted of it stays true (`Agrees`): the size it took is not
past the end, and a request with an offset that was inside the log when the size was
taken is read from this offset.
-/

namespace TiBackup

open Lib

namespace LogRead

/-- Where `readAll` begins. -/
def readPos : LogRead → Nat
  | reading _ pos _ => pos
  | _ => 0

/-- What the handler of a request with this offset noted fits the log: for a run log
there is a size. -/
def Agrees (run : Bool) (asked : Option Nat) (file : Bytes) : LogRead → Prop
  | opened offset _ => run = true ∧ offset = asked.map Int.ofNat
  | sized offset _ size =>
    run = true ∧ offset = asked.map Int.ofNat ∧ size ≤ file.length ∧ ∀ o, asked = some o → o ≤ size
  | viewing size _ => asked = none ∧ size.isSome = run ∧ ∀ n, size = some n → n ≤ file.length
  | atLine size pos =>
    (asked = none ∧ size.isSome = run ∧ ∀ n, size = some n → n ≤ file.length) ∧ pos ≤ file.length
  | reading size pos _ =>
    (size.isSome = run ∧ ∀ n, size = some n → n ≤ file.length) ∧ pos ≤ file.length ∧
      ∀ o, asked = some o → pos = o
  | answered _ => False

theorem agrees_start {run : Bool} {asked : Option Nat} {full : Bool} {file : Bytes}
    (h : run = false → asked = none) :
    Agrees run asked file (start { run, offset := asked.map Int.ofNat, full }) := by
  cases run with
  | true => exact ⟨rfl, rfl⟩
  | false => exact ⟨h rfl, rfl, nofun⟩

/-- The log grows. -/
theorem Agrees.append {run : Bool} {asked : Option Nat} {file : Bytes} {p : LogRead}
    (h : Agrees run asked file p) (chunk : Bytes) : Agrees run asked (file ++ chunk) p := by
  have hle : file.length ≤ (file ++ chunk).length := by
    rw [List.length_append]
    omega
  cases p with
  | opened offset full => exact h
  | sized offset full size => exact ⟨h.1, h.2.1, h.2.2.1.trans hle, h.2.2.2⟩
  | viewing size full => exact ⟨h.1, h.2.1, fun n hn => (h.2.2 n hn).trans hle⟩
  | atLine size pos =>
    obtain ⟨⟨hasked, hsome, hsize⟩, hpos⟩ := h
    exact ⟨⟨hasked, hsome, fun n hn => (hsize n hn).trans hle⟩, hpos.trans hle⟩
  | reading size pos truncated =>
    obtain ⟨⟨hsome, hsize⟩, hpos, hasked⟩ := h
    exact ⟨⟨hsome, fun n hn => (hsize n hn).trans hle⟩, hpos.trans hle, hasked⟩
  | answered a => exact h

/-- The handler goes on, short of the read. -/
theorem Agrees.step {run : Bool} {asked : Option Nat} {file : Bytes} {p : LogRead}
    (h : Agrees run asked file p)
    (hrange : ∀ offset full, p = opened offset full → ∀ o, asked = some o → o ≤ file.length)
    (hreading : ∀ size pos truncated, p ≠ reading size pos truncated) :
    Agrees run asked file (step file p) := by
  have hnone : ∀ {pos}, asked = none → ∀ o, asked = some o → pos = o := by
    intro pos hasked o ho
    rw [hasked] at ho
    cases ho
  -- With an offset the read starts there, and else at the last part of the log.
  cases p with
  | opened offset full => exact ⟨h.1, h.2, Nat.le_refl _, hrange offset full rfl⟩
  | sized offset full size =>
    obtain ⟨hrun, hoffset, hsize, hasked⟩ := h
    have hsizes : ∀ n, some size = some n → n ≤ file.length := by
      intro n hn
      rwa [← Option.some.inj hn]
    cases asked with
    | none =>
      rw [hoffset]
      exact ⟨rfl, hrun.symm, hsizes⟩
    | some o =>
      have hle := hasked o rfl
      have hin : 0 ≤ Int.ofNat o ∧ Int.ofNat o ≤ size := ⟨by simp, by simpa using hle⟩
      rw [hoffset, Option.map_some, LogRead.step, if_pos hin]
      refine ⟨⟨hrun.symm, hsizes⟩, hle.trans hsize, ?_⟩
      intro o' ho'
      exact Option.some.inj ho'
  | viewing size full =>
    rcases step_viewing file size full with ⟨cap, hcap⟩ | hwhole
    · rw [hcap]
      exact ⟨h, Nat.sub_le _ _⟩
    · rw [hwhole]
      exact ⟨h.2, Nat.zero_le _, hnone h.1⟩
  | atLine size pos =>
    obtain ⟨⟨hasked, hsize⟩, hpos⟩ := h
    refine ⟨hsize, ?_, hnone hasked⟩
    rw [lineLength, List.length_drop]
    omega
  | reading size pos truncated => exact absurd rfl (hreading size pos truncated)
  | answered a => exact h

/-- An answer is what the read makes of it. -/
theorem Agrees.reading_of_answered {run : Bool} {asked : Option Nat} {file : Bytes} {p : LogRead}
    {a : LogAnswer} (h : Agrees run asked file p) (ha : LogRead.step file p = answered a) :
    ∃ size pos truncated, p = reading size pos truncated := by
  cases p with
  | reading size pos truncated => exact ⟨size, pos, truncated, rfl⟩
  | opened offset full => cases ha
  | sized offset full size =>
    rcases step_sized file offset full size with hview | ⟨pos, hpos⟩
    · rw [hview] at ha
      cases ha
    · rw [hpos] at ha
      cases ha
  | viewing size full =>
    rcases step_viewing file size full with ⟨cap, hcap⟩ | hwhole
    · rw [hcap] at ha
      cases ha
    · rw [hwhole] at ha
      cases ha
  | atLine size pos => cases ha
  | answered a => exact absurd h id

/-- The text that is read is the rest of the log. -/
theorem toUtf8_readText_drop {file : Bytes} {pos : Nat} (h : PlainText (file.drop pos)) :
    toUtf8 (readText (file.drop pos)) = slice file pos file.length := by
  rw [h.toUtf8_readText, slice_length]

end LogRead

end TiBackup
