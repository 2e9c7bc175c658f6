import TiBackup.Logs.Reads

/-!
# TiBackup.Logs.Tail

**The live tail of a run log.** A client asks for a log and then again and again for what
was appended since the offset of the last answer, while the writer goes on. The handler
takes the size first and reads later, and the size is the next offset.

As long as nothing is appended between these two operations (`quiet`), the texts of the
answers are one slice of the file that ends at the last offset (`tail_contiguous`).
What is appended in between is in this answer and in the next one.
-/

namespace TiBackup

open Lib Lib.Machine

/-- One client that tails a log, and the log. -/
structure RunTail where
  log : Bytes
  /-- How far the handler is, when a request is under way. -/
  request : Option LogRead := none
  /-- The offset of the last answer. -/
  offset : Option Nat := none
  /-- The texts of all answers. -/
  text : String := ""
  /-- Where the text of the first answer begins in the file. -/
  begins : Nat := 0

/-- The writer appends, the client sends its next request, the handler does one
operation. -/
inductive TailEvent
  | append (chunk : Bytes)
  | poll
  | step
  deriving DecidableEq

namespace RunTail

/-- The client gets its answer when the handler is done. -/
def settle (t : RunTail) (p : LogRead) : LogRead → RunTail
  | .answered a =>
    { t with
      request := none
      offset := a.offset
      text := t.text ++ a.text
      begins := if t.offset.isNone then p.readPos else t.begins }
  | p' => { t with request := some p' }

def step (t : RunTail) : TailEvent → RunTail
  | .append chunk => { t with log := t.log ++ chunk }
  | .poll =>
    match t.request with
    | none => { t with request := some (.start { run := true, offset := t.offset.map Int.ofNat }) }
    | some _ => t
  | .step =>
    match t.request with
    | none => t
    | some p => settle t p (p.step t.log)

def machine : Machine RunTail TailEvent Unit where
  step t e := (step t e, ())

/-- A client that has asked for nothing yet. -/
def start (log : Bytes) : RunTail where
  log := log

/-- When the handler reads, the file is as long as when it took the size. -/
def quiet (t : RunTail) : TailEvent → Bool
  | .step =>
    match t.request with
    | some (.reading (some size) _ _) => t.log.length = size
    | _ => true
  | _ => true

/-- The texts are one slice of the file, which ends at the last offset. -/
def Contiguous (t : RunTail) : Prop :=
  match t.offset with
  | none => t.text = ""
  | some o => t.begins ≤ o ∧ o ≤ t.log.length ∧ toUtf8 t.text = slice t.log t.begins o

/-- ASCII without carriage returns. -/
def PlainBytes (bs : Bytes) : Prop := ∀ b ∈ bs, b < 128 ∧ b ≠ 13

/-- The invariant of a tail. -/
structure Fits (t : RunTail) : Prop where
  plain : PlainBytes t.log
  contiguous : Contiguous t
  request : ∀ p, t.request = some p → p.Agrees true t.offset t.log

theorem fits_start {log : Bytes} (h : PlainBytes log) : Fits (start log) :=
  ⟨h, rfl, nofun⟩

theorem Contiguous.offset_le {t : RunTail} (h : Contiguous t) {o : Nat} (ho : t.offset = some o) :
    o ≤ t.log.length := by
  rw [Contiguous, ho] at h
  exact h.2.1

/-- The log grows. -/
theorem Fits.append {t : RunTail} (h : Fits t) {chunk : Bytes} (hchunk : PlainBytes chunk) :
    Fits (step t (.append chunk)) := by
  refine ⟨?_, ?_, ?_⟩
  · intro b hb
    rcases List.mem_append.mp hb with hb | hb
    · exact h.plain b hb
    · exact hchunk b hb
  · have hcontiguous := h.contiguous
    rw [Contiguous] at hcontiguous ⊢
    show match t.offset with
      | none => t.text = ""
      | some o => t.begins ≤ o ∧ o ≤ (t.log ++ chunk).length ∧
          toUtf8 t.text = slice (t.log ++ chunk) t.begins o
    cases ho : t.offset with
    | none => simpa only [ho] using hcontiguous
    | some o =>
      rw [ho] at hcontiguous
      obtain ⟨hbegins, hend, htext⟩ := hcontiguous
      refine ⟨hbegins, ?_, by rw [slice_append _ _ _ hend, htext]⟩
      rw [List.length_append]
      omega
  · intro p hp
    exact (h.request p hp).append chunk

/-- The next request asks for what is behind the last offset. -/
theorem Fits.poll {t : RunTail} (h : Fits t) : Fits (step t .poll) := by
  rw [step]
  split
  · refine ⟨h.plain, h.contiguous, ?_⟩
    intro p hp
    obtain rfl := Option.some.inj hp
    exact LogRead.agrees_start nofun
  · exact h

/-- An answer that was read while nobody wrote goes on where the last one ended. -/
theorem Contiguous.answer {t : RunTail} (h : Fits t) {size pos : Nat} {truncated : Bool}
    (hp : LogRead.Agrees true t.offset t.log (.reading (some size) pos truncated))
    (hquiet : t.log.length = size) :
    Contiguous (settle t (.reading (some size) pos truncated)
      (LogRead.step t.log (.reading (some size) pos truncated))) := by
  obtain ⟨-, hpos, hoffset⟩ := hp
  have hread : toUtf8 (readText (t.log.drop pos)) = slice t.log pos size := by
    rw [← hquiet]
    exact LogRead.toUtf8_readText_drop
      (plainText_of_ascii fun b hb => h.plain b (List.mem_of_mem_drop hb))
  have hcontiguous := h.contiguous
  rw [Contiguous] at hcontiguous
  show (if t.offset.isNone then pos else t.begins) ≤ size ∧ size ≤ t.log.length ∧
    toUtf8 (t.text ++ readText (t.log.drop pos)) =
      slice t.log (if t.offset.isNone then pos else t.begins) size
  cases ho : t.offset with
  | none =>
    rw [ho] at hcontiguous
    refine ⟨by simpa [hquiet] using hpos, hquiet.ge, ?_⟩
    rw [hcontiguous, String.empty_append, hread]
    rfl
  | some o =>
    rw [ho] at hcontiguous
    obtain ⟨hbegins, hend, htext⟩ := hcontiguous
    obtain rfl := hoffset o ho
    refine ⟨hbegins.trans (hend.trans hquiet.le), hquiet.ge, ?_⟩
    rw [toUtf8_append, htext, hread]
    exact slice_append_slice t.log hbegins (hend.trans hquiet.le)

/-- Short of the answer, the client waits. -/
theorem settle_of_agrees {t : RunTail} {p p' : LogRead}
    (h : p'.Agrees true t.offset t.log) : settle t p p' = { t with request := some p' } := by
  cases p' with
  | answered a => exact absurd h id
  | _ => rfl

/-- One operation of the handler. -/
theorem Fits.handler {t : RunTail} (h : Fits t) (hquiet : quiet t .step = true) :
    Fits (step t .step) := by
  cases hrequest : t.request with
  | none =>
    rw [step, hrequest]
    exact h
  | some p =>
    have hagrees := h.request p hrequest
    rw [step, hrequest]
    dsimp only
    -- Only a read is answered, and only there it matters that nobody writes.
    by_cases hreading : ∃ size pos truncated, p = .reading size pos truncated
    · obtain ⟨size, pos, truncated, rfl⟩ := hreading
      obtain ⟨n, rfl⟩ := Option.isSome_iff_exists.mp hagrees.1.1
      have hlength : t.log.length = n := by
        rw [quiet, hrequest] at hquiet
        simpa using hquiet
      exact ⟨h.plain, Contiguous.answer h hagrees hlength, nofun⟩
    · have hstep := hagrees.step (fun _ _ _ o ho => h.contiguous.offset_le ho)
        fun size pos truncated heq => hreading ⟨size, pos, truncated, heq⟩
      rw [settle_of_agrees hstep]
      refine ⟨h.plain, h.contiguous, ?_⟩
      intro p' hp'
      obtain rfl := Option.some.inj hp'
      exact hstep

theorem Fits.next {t : RunTail} (h : Fits t) {e : TailEvent} (hquiet : quiet t e = true)
    (hplain : ∀ chunk, e = .append chunk → PlainBytes chunk) : Fits (machine.next t e) := by
  cases e with
  | append chunk => exact h.append (hplain chunk rfl)
  | poll => exact h.poll
  | step => exact h.handler hquiet

/-- **No byte twice, none skipped.** -/
theorem tail_contiguous (log : Bytes) (hlog : PlainBytes log) (es : List TailEvent)
    (hplain : ∀ chunk, .append chunk ∈ es → PlainBytes chunk)
    (hquiet : machine.Along (fun t e => quiet t e = true) (start log) es) :
    Contiguous (machine.run (start log) es) := by
  have happends : machine.Along (fun _ e => ∀ chunk, e = .append chunk → PlainBytes chunk)
      (start log) es :=
    along_of_forall_mem (fun e he chunk heq => hplain chunk (by rwa [← heq])) _
  have hfits := invariant_run (fun t e hfits h => hfits.next h.1 h.2) (fits_start hlog)
    (along_and hquiet happends)
  exact hfits.contiguous

/-- A client that asks twice, while the writer waits for the handler. -/
def quietRun : List TailEvent :=
  [.poll, .step, .step, .step, .step, .append (toUtf8 "two\n"), .poll, .step, .step, .step]

/-- The same requests, with the writer between the size and the read of the first one. -/
def busyRun : List TailEvent :=
  [.poll, .step, .append (toUtf8 "two\n"), .step, .step, .step, .poll, .step, .step, .step]

theorem plainBytes_toUtf8_one : PlainBytes (toUtf8 "one\n") := by
  rw [PlainBytes]
  decide +kernel

theorem plainBytes_toUtf8_two : PlainBytes (toUtf8 "two\n") := by
  rw [PlainBytes]
  decide +kernel

theorem tail_contiguous_quietRun :
    Contiguous (machine.run (start (toUtf8 "one\n")) quietRun) ∧
      (machine.run (start (toUtf8 "one\n")) quietRun).text = "one\ntwo\n" ∧
      (machine.run (start (toUtf8 "one\n")) quietRun).offset = some 8 := by
  have hplain : ∀ chunk, .append chunk ∈ quietRun → PlainBytes chunk := by
    intro chunk hchunk
    simp only [quietRun, List.mem_cons, TailEvent.append.injEq, List.not_mem_nil, or_false,
      reduceCtorEq, false_or] at hchunk
    rw [hchunk]
    exact plainBytes_toUtf8_two
  refine ⟨tail_contiguous _ plainBytes_toUtf8_one quietRun hplain (by decide +kernel), ?_, ?_⟩
  · decide +kernel
  · decide +kernel

/-- No more is shown than there is. -/
theorem Contiguous.length_le {t : RunTail} (h : Contiguous t) :
    (toUtf8 t.text).length ≤ t.log.length := by
  rw [Contiguous] at h
  split at h
  · rw [h]
    exact Nat.zero_le _
  · obtain ⟨-, -, htext⟩ := h
    rw [htext]
    exact length_slice_le _ _ _

/-- The line appended in between is returned by both answers. -/
theorem busyRun_repeats :
    PlainBytes (toUtf8 "one\n") ∧ PlainBytes (toUtf8 "two\n") ∧
      (machine.run (start (toUtf8 "one\n")) busyRun).log = toUtf8 "one\ntwo\n" ∧
      (machine.run (start (toUtf8 "one\n")) busyRun).text = "one\ntwo\ntwo\n" ∧
      (machine.run (start (toUtf8 "one\n")) busyRun).offset = some 8 ∧
      ¬Contiguous (machine.run (start (toUtf8 "one\n")) busyRun) := by
  refine ⟨plainBytes_toUtf8_one, plainBytes_toUtf8_two, by decide +kernel, by decide +kernel,
    by decide +kernel, ?_⟩
  intro h
  have hlonger : (machine.run (start (toUtf8 "one\n")) busyRun).log.length <
      (toUtf8 (machine.run (start (toUtf8 "one\n")) busyRun).text).length := by decide +kernel
  exact absurd h.length_le (Nat.not_le.mpr hlonger)

end RunTail

end TiBackup
