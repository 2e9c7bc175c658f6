import TiBackup.Logs.Viewer

/-!
# TiBackup.Logs.LiveEnd

**A live log is shown to its end.** While a run is tailed, the page polls until the job
is no longer running, and polls once more when the message comes that it stopped. That
last poll is skipped while another one is in flight, and then it is the other one that
ends the tail.

As long as no answer is in flight, when that message arrives, that was read before the
last bytes were appended (`Timely`), the text has every byte from where it began to the
end of the log when the tail stops (`shown_to_end`).

A tail is opening, tailing or stopped (`Phase`), and has at most one request in flight.
-/

namespace TiBackup

open Lib Lib.Machine

/-- The text consists of the recorded parts of the file, and from the first one on they
leave nothing out up to a position. -/
structure Covers (file : Bytes) (text : String) (spans : List (Nat × Nat)) (stop : Nat) :
    Prop where
  text : toUtf8 text = spans.flatMap fun p => slice file p.1 p.2
  inside : ∀ p ∈ spans, p.2 ≤ file.length
  covered : ∃ first rest, spans = first :: rest ∧
    ∀ i, first.1 ≤ i → i < stop → ∃ p ∈ spans, p.1 ≤ i ∧ i < p.2

theorem Covers.grow {file : Bytes} {text : String} {spans : List (Nat × Nat)} {stop : Nat}
    (h : Covers file text spans stop) (more : Bytes) : Covers (file ++ more) text spans stop where
  text := by
    rw [h.text]
    refine List.flatMap_congr ?_
    intro p hp
    rw [slice_append _ _ _ (h.inside p hp)]
  inside p hp := by
    have hle := h.inside p hp
    rw [List.length_append]
    omega
  covered := h.covered

namespace RunViewer

/-- Every byte of the finished log is shown, from where the text began. -/
structure ShownToEnd (s : RunViewer) : Prop where
  finished : s.runOver = true
  covers : Covers (s.content (.run s.runFile)) s.runText s.spans
    (s.content (.run s.runFile)).length

/-- Is the next message a final status of the job whose log is open? -/
def StopArrives (s : RunViewer) : Prop :=
  ∃ status rest, s.messages = (s.runName, status) :: rest ∧ status ≠ "running"

/-- The viewer stays on its run, no request fails, and the log is complete before the
final status is reported. -/
def Stays (s : RunViewer) : ViewerEvent → Prop
  | .interval _ | .statusChanged _ _ | .message | .handle _ | .answer _ => True
  | .append target _ => target = .run s.runFile → s.runOver = false
  | _ => False

/-- When the final status arrives, an answer in flight to a poll is about the whole log;
and plain text is read. -/
def Timely (s : RunViewer) : ViewerEvent → Prop
  | .message => StopArrives s → ∀ r ∈ s.requests, r.origin = .tickRunTail → r.answer.isSome = true →
    r.span.2 = (s.content (.run s.runFile)).length
  | .handle id => ∀ r ∈ s.requests, r.id = id →
    ∀ size pos truncated, r.read = some (.reading size pos truncated) →
      PlainText ((s.content r.target).drop pos)
  | _ => True

/-! ### The invariant -/

/-- An answer in flight: a part of the file, with a next offset that is not past it. -/
structure TailAnswer (file : Bytes) (r : LogRequest) (a : LogAnswer) : Prop where
  inside : r.span.2 ≤ file.length
  text : toUtf8 a.text = slice file r.span.1 r.span.2
  offset : ∃ n, a.offset = some n ∧ n ≤ r.span.2
  asked : ∀ o, r.offset = some o → r.span.1 = o

/-- A request in flight. -/
structure TailRequest (file : Bytes) (log : LogRef) (r : LogRequest) : Prop where
  target : r.target = log
  isRun : log.isRun = true
  asked : ∀ o, r.offset = some o → o ≤ file.length
  read : ∀ p, r.answer = none → r.read = some p → p.Agrees true r.offset file
  answer : ∀ a, r.answer = some a → TailAnswer file r a

/-- A request that was just sent. -/
theorem tailRequest_new {file : Bytes} {log : LogRef} {r : LogRequest} (htarget : r.target = log)
    (hrun : log.isRun = true) (hread : r.read = none) (hanswer : r.answer = none)
    (hasked : ∀ o, r.offset = some o → o ≤ file.length) : TailRequest file log r where
  target := htarget
  isRun := hrun
  asked := hasked
  read p _ hp := by
    rw [hread] at hp
    cases hp
  answer a ha := by
    rw [hanswer] at ha
    cases ha

/-- The three phases of a tail. -/
inductive Phase (s : RunViewer) (file : Bytes) : Prop
  /-- The log was asked for. -/
  | opening (r : LogRequest) (requests : s.requests = [r]) (origin : r.origin = .openRun true)
      (opened : s.lastOpen = some r.id) (settled : s.settled = false) (live : s.runLive = false)
      (busy : s.runTailBusy = false) (intervals : s.intervals = [])
  /-- It is polled, with nothing in flight or one poll from the offset. -/
  | tailing (t : Nat) (settled : s.settled = true) (live : s.runLive = true)
      (polls : s.requests = [] ∧ s.runTailBusy = false ∨
        ∃ r, s.requests = [r] ∧ r.origin = .tickRunTail ∧ r.offset = some s.runOffset ∧
          s.runTailBusy = true)
      (timer : s.runTimer = some t) (intervals : s.intervals = [t])
      (covers : Covers file s.runText s.spans s.runOffset)
  /-- The tail has stopped. -/
  | stopped (settled : s.settled = true) (live : s.runLive = false) (requests : s.requests = [])
      (intervals : s.intervals = []) (finished : s.runOver = true)
      (covers : Covers file s.runText s.spans file.length)

/-- The phase does not depend on the files, the jobs and the messages. -/
theorem Phase.frame {s s' : RunViewer} {file : Bytes} (h : Phase s file)
    (hsame : s' = { s with
      files := s'.files, jobs := s'.jobs, messages := s'.messages, runOver := s'.runOver })
    (hover : s.runOver = true → s'.runOver = true) : Phase s' file := by
  rw [hsame]
  cases h with
  | opening r hrequests horigin hopened hsettled hlive hbusy hintervals =>
    exact .opening r hrequests horigin hopened hsettled hlive hbusy hintervals
  | tailing t hsettled hlive hpolls htimer hintervals hcovers =>
    exact .tailing t hsettled hlive hpolls htimer hintervals hcovers
  | stopped hsettled hlive hrequests hintervals hfinished hcovers =>
    exact .stopped hsettled hlive hrequests hintervals (hover hfinished) hcovers

/-- The log grows, unless the job is over. -/
theorem Phase.grow {s : RunViewer} {file : Bytes} (h : Phase s file) {more : Bytes}
    (hmore : s.runOver = true → more = []) : Phase s (file ++ more) := by
  cases h with
  | opening r hrequests horigin hopened hsettled hlive hbusy hintervals =>
    exact .opening r hrequests horigin hopened hsettled hlive hbusy hintervals
  | tailing t hsettled hlive hpolls htimer hintervals hcovers =>
    exact .tailing t hsettled hlive hpolls htimer hintervals (hcovers.grow more)
  | stopped hsettled hlive hrequests hintervals hfinished hcovers =>
    rw [hmore hfinished, List.append_nil]
    exact .stopped hsettled hlive hrequests hintervals hfinished hcovers

/-- The invariant of a tail. -/
structure Tails (s : RunViewer) : Prop where
  requests : ∀ r ∈ s.requests,
    TailRequest (s.content (.run s.runFile)) (.run s.runFile) r
  offset : s.runOffset ≤ (s.content (.run s.runFile)).length
  /-- A job that is not running has ended, and what is in flight knows the whole log. -/
  ended : s.isRunning s.runName = false → s.runOver = true ∧
    ∀ r ∈ s.requests, r.origin = .tickRunTail → r.answer.isSome = true →
      r.span.2 = (s.content (.run s.runFile)).length
  messages : ∀ status, (s.runName, status) ∈ s.messages → status ≠ "running" → s.runOver = true
  phase : Phase s (s.content (.run s.runFile))

/-- A viewer that waits for no answer and has no interval but its timer, and knows that
the job is running. -/
structure Idle (s : RunViewer) (name : String) : Prop where
  requests : s.requests = []
  busy : s.runTailBusy = false
  intervals : ∀ i ∈ s.intervals, s.runTimer = some i
  running : s.isRunning name = true

/-- The log is opened. -/
theorem tails_openRun {s : RunViewer} {file name : String} (h : Idle s name) :
    Tails (s.openRun file name true) := by
  have hintervals : s.stopRunTail.intervals = [] := by
    rw [stopRunTail]
    split
    · next t ht =>
      refine List.filter_eq_nil_iff.mpr ?_
      intro i hi
      have hit : i = t := Option.some.inj ((h.intervals i hi).symm.trans ht)
      simp [hit]
    · next hnone =>
      refine List.eq_nil_iff_forall_not_mem.mpr ?_
      intro i hi
      cases hnone.symm.trans (h.intervals i hi)
  have hrest : s.stopRunTail.runTailBusy = false ∧ s.stopRunTail.runLive = false ∧
      s.stopRunTail.jobs = s.jobs := by
    rw [stopRunTail]
    split
    · exact ⟨h.busy, rfl, rfl⟩
    · exact ⟨h.busy, rfl, rfl⟩
  obtain ⟨hbusy, hlive, hjobs⟩ := hrest
  have hrequests : (s.openRun file name true).requests =
      [{ id := s.nextRequest, origin := .openRun true, target := .run file, offset := none,
         full := false }] := by
    show s.stopRunTail.toShownLog.requests ++ [_] = _
    rw [log_stopRunTail, h.requests]
    rfl
  refine ⟨?_, Nat.zero_le _, ?_, ?_, ?_⟩
  · intro r hr
    rw [hrequests] at hr
    obtain rfl := List.mem_singleton.mp hr
    exact tailRequest_new rfl rfl rfl rfl fun o ho => by cases ho
  · intro hnot
    have hrunning : (s.openRun file name true).isRunning name = true := by
      show (s.stopRunTail.jobs.any _) = true
      rw [hjobs]
      exact h.running
    exact absurd (hrunning.symm.trans hnot) (by decide)
  · -- A final status that is still on its way ended the run.
    intro status hstatus hne
    have hfinal : (decide ((name, status).1 = name) &&
        decide ((name, status).2 ≠ "running")) = true := by
      simp [hne]
    exact List.any_eq_true.mpr ⟨_, hstatus, hfinal⟩
  · refine .opening _ hrequests rfl ?_ rfl hlive hbusy hintervals
    show some s.stopRunTail.toShownLog.nextRequest = _
    rw [log_stopRunTail]

/-! ### Polls -/

/-- A poll is sent, unless there is one. -/
theorem Tails.tickRunTail {s : RunViewer} (h : Tails s) (hlive : s.runLive = true) :
    Tails s.tickRunTail := by
  rw [RunViewer.tickRunTail]
  split
  · exact h
  · next hfree =>
    rw [Bool.or_eq_true, not_or] at hfree
    cases h.phase with
    | opening r _ _ _ _ hoff => exact absurd (hoff.symm.trans hlive) (by decide)
    | stopped _ hoff => exact absurd (hoff.symm.trans hlive) (by decide)
    | tailing t hsettled _ hpolls htimer hintervals hcovers =>
      rcases hpolls with ⟨hnone, -⟩ | ⟨r, -, -, -, hbusy⟩
      · have hrequests : (s.send .tickRunTail (.run s.runFile) (some s.runOffset) false).requests =
            [{ id := s.nextRequest, origin := .tickRunTail, target := .run s.runFile
               offset := some s.runOffset, full := false }] := by
          show s.requests ++ [_] = _
          rw [hnone]
          rfl
        refine ⟨?_, h.offset, ?_, h.messages, ?_⟩
        · intro r hr
          obtain rfl := List.mem_singleton.mp (hrequests ▸ hr)
          refine tailRequest_new rfl rfl rfl rfl ?_
          intro o ho
          rw [← Option.some.inj ho]
          exact h.offset
        · intro hnot
          refine ⟨(h.ended hnot).1, ?_⟩
          intro r hr _ hanswer
          obtain rfl := List.mem_singleton.mp (hrequests ▸ hr)
          cases hanswer
        · exact .tailing t hsettled hlive (.inr ⟨_, hrequests, rfl, rfl, rfl⟩) htimer hintervals
            hcovers
      · exact absurd hbusy hfree.1

theorem Tails.interval {s : RunViewer} (h : Tails s) (id : Nat) : Tails (step s (.interval id)) := by
  rw [step]
  split
  · next hset =>
    refine h.tickRunTail ?_
    cases h.phase with
    | opening r _ _ _ _ _ _ hintervals =>
      rw [hintervals] at hset
      cases hset
    | tailing t _ hlive => exact hlive
    | stopped _ _ _ hintervals =>
      rw [hintervals] at hset
      cases hset
  · exact h

/-! ### The daemon -/

theorem Tails.statusChanged {s : RunViewer} (h : Tails s) (name : String) (status : BackupStatus) :
    Tails (step s (.statusChanged name status)) := by
  have hover : s.runOver = true →
      (s.runOver || (decide (name = s.runName) && decide (status ≠ .running))) = true := by
    intro h
    rw [h, Bool.true_or]
  refine ⟨h.requests, h.offset, ?_, ?_, h.phase.frame rfl hover⟩
  · intro hnot
    obtain ⟨hended, hknown⟩ := h.ended hnot
    exact ⟨hover hended, hknown⟩
  · intro st hst hne
    rcases List.mem_append.mp hst with hst | hst
    · exact hover (h.messages st hst hne)
    · -- The message that was just sent.
      obtain ⟨hname, rfl⟩ := Prod.mk.inj (List.mem_singleton.mp hst)
      have hsame : name = s.runName := hname.symm
      have hfinal : status ≠ .running := by
        rintro rfl
        exact hne rfl
      show (s.runOver || (decide (name = s.runName) && decide (status ≠ .running))) = true
      rw [decide_eq_true hsame, decide_eq_true hfinal, Bool.and_self, Bool.or_true]

/-- The log grows. -/
theorem TailRequest.grow {file : Bytes} {log : LogRef} {r : LogRequest}
    (h : TailRequest file log r) (more : Bytes) : TailRequest (file ++ more) log r where
  target := h.target
  isRun := h.isRun
  asked o ho := by
    have hle := h.asked o ho
    rw [List.length_append]
    omega
  read p hanswer hp := (h.read p hanswer hp).append more
  answer a ha := by
    obtain ⟨hinside, htext, hoffset, hasked⟩ := h.answer a ha
    refine ⟨?_, ?_, hoffset, hasked⟩
    · rw [List.length_append]
      omega
    · rw [slice_append _ _ _ hinside, htext]

/-- What is appended to the log that is open; nothing, once the job is over. -/
theorem exists_appended {s : RunViewer} {target : LogRef} {chunk : Bytes}
    (hstays : target = .run s.runFile → s.runOver = false) :
    ∃ more, (s.toShownLog.append target chunk).content (.run s.runFile) =
        s.content (.run s.runFile) ++ more ∧ (s.runOver = true → more = []) := by
  by_cases htarget : target = .run s.runFile
  · refine ⟨chunk, ?_, ?_⟩
    · simp [ShownLog.content, ShownLog.append, htarget]
    · intro hover
      rw [hstays htarget] at hover
      cases hover
  · refine ⟨[], ?_, fun _ => rfl⟩
    simp [ShownLog.content, ShownLog.append, Ne.symm htarget]

theorem Tails.append {s : RunViewer} (h : Tails s) (target : LogRef) (chunk : Bytes)
    (hstays : target = .run s.runFile → s.runOver = false) :
    Tails (step s (.append target chunk)) := by
  obtain ⟨more, hcontent, hmore⟩ := @exists_appended s target chunk hstays
  refine ⟨?_, ?_, ?_, h.messages, ?_⟩
  · intro r hr
    show TailRequest ((s.toShownLog.append target chunk).content (.run s.runFile)) _ r
    rw [hcontent]
    exact (h.requests r hr).grow more
  · show s.runOffset ≤ ((s.toShownLog.append target chunk).content (.run s.runFile)).length
    have hle := h.offset
    rw [hcontent, List.length_append]
    omega
  · show s.isRunning s.runName = false → s.runOver = true ∧ ∀ r ∈ s.requests,
      r.origin = .tickRunTail → r.answer.isSome = true →
        r.span.2 = ((s.toShownLog.append target chunk).content (.run s.runFile)).length
    intro hnot
    rw [hcontent, hmore (h.ended hnot).1, List.append_nil]
    exact h.ended hnot
  · show Phase _ ((s.toShownLog.append target chunk).content (.run s.runFile))
    rw [hcontent]
    exact (h.phase.grow hmore).frame rfl id

/-- One operation for a request of the tail. -/
theorem TailRequest.handled {file : Option Bytes} {log : LogRef} {r : LogRequest}
    (h : TailRequest (file.getD []) log r)
    (hplain : ∀ size pos truncated, r.read = some (.reading size pos truncated) →
      PlainText ((file.getD []).drop pos)) :
    TailRequest (file.getD []) log (ShownLog.handled file r) ∧
      ((ShownLog.handled file r).answer = r.answer ∧
          (ShownLog.handled file r).span = r.span ∨
        (ShownLog.handled file r).span.2 = (file.getD []).length) := by
  rcases ShownLog.handled_cases file r with hsame | ⟨f, rfl, hanswer, hread, hstart⟩ |
    ⟨f, p, rfl, hanswer, hread, ⟨a, hstep, hdone⟩ | ⟨hno, hdone⟩⟩
  · rw [hsame]
    exact ⟨h, .inl ⟨rfl, rfl⟩⟩
  · rw [hstart]
    refine ⟨⟨h.target, h.isRun, h.asked, ?_, ?_⟩, .inl ⟨rfl, rfl⟩⟩
    · intro p _ hp
      obtain rfl := Option.some.inj hp
      have hrun : r.target.isRun = true := by rw [h.target, h.isRun]
      rw [hrun]
      exact LogRead.agrees_start nofun
    · intro a ha
      rw [hanswer] at ha
      cases ha
  · have hagrees := h.read p hanswer hread
    obtain ⟨size, pos, truncated, rfl⟩ := hagrees.reading_of_answered hstep
    obtain rfl := LogRead.answered.inj hstep
    obtain ⟨⟨hsome, hsize⟩, hpos, hasked⟩ := hagrees
    obtain ⟨n, rfl⟩ := Option.isSome_iff_exists.mp hsome
    rw [hdone]
    refine ⟨⟨h.target, h.isRun, h.asked, fun _ hnone => (by cases hnone), ?_⟩, .inr rfl⟩
    intro a ha
    obtain rfl := Option.some.inj ha
    exact ⟨Nat.le_refl _, LogRead.toUtf8_readText_drop (hplain _ _ _ hread), ⟨n, rfl, hsize n rfl⟩,
      hasked⟩
  · have hagrees := h.read p hanswer hread
    rw [hdone]
    refine ⟨⟨h.target, h.isRun, h.asked, ?_, ?_⟩, .inl ⟨rfl, rfl⟩⟩
    · intro p' _ hp'
      obtain rfl := Option.some.inj hp'
      refine hagrees.step (fun _ _ _ => h.asked) ?_
      intro size pos truncated hreading
      rw [hreading] at hno
      exact hno _ rfl
    · intro a ha
      rw [hanswer] at ha
      cases ha

/-- The only request in flight, after an operation. -/
theorem handle_singleton {s : ShownLog} {r : LogRequest} (h : s.requests = [r]) (id : Nat) :
    ∃ r', (s.handle id).requests = [r'] ∧ r'.id = r.id ∧ r'.origin = r.origin ∧
      r'.offset = r.offset := by
  have hmap : (s.handle id).requests =
      [if r.id = id then ShownLog.handled (s.files r.target) r else r] := by
    rw [ShownLog.handle, h]
    rfl
  obtain ⟨hid, horigin, -, hoffset⟩ := ShownLog.handled_keeps (s.files r.target) r
  refine ⟨_, hmap, ?_⟩
  split
  · exact ⟨hid, horigin, hoffset⟩
  · exact ⟨rfl, rfl, rfl⟩

theorem Tails.handle {s : RunViewer} (h : Tails s) (id : Nat)
    (htimely : ∀ r ∈ s.requests, r.id = id → ∀ size pos truncated,
      r.read = some (.reading size pos truncated) → PlainText ((s.content r.target).drop pos)) :
    Tails (step s (.handle id)) := by
  have hhandled : ∀ r₀ ∈ s.requests, r₀.id = id →
      TailRequest (s.content (.run s.runFile)) (.run s.runFile)
          (ShownLog.handled (s.files r₀.target) r₀) ∧
        ((ShownLog.handled (s.files r₀.target) r₀).answer = r₀.answer ∧
            (ShownLog.handled (s.files r₀.target) r₀).span = r₀.span ∨
          (ShownLog.handled (s.files r₀.target) r₀).span.2 =
            (s.content (.run s.runFile)).length) := by
    intro r₀ hr₀ hid
    have hr := h.requests r₀ hr₀
    have hplain := htimely r₀ hr₀ hid
    rw [hr.target] at hplain ⊢
    exact hr.handled hplain
  refine ⟨?_, h.offset, ?_, h.messages, ?_⟩
  · intro r hr
    obtain ⟨r₀, hr₀, ⟨rfl, -⟩ | ⟨rfl, hid⟩⟩ := ShownLog.mem_handle hr
    · exact h.requests r hr₀
    · exact (hhandled r₀ hr₀ hid).1
  · intro hnot
    obtain ⟨hended, hknown⟩ := h.ended hnot
    refine ⟨hended, ?_⟩
    intro r hr htick hanswer
    obtain ⟨r₀, hr₀, ⟨rfl, -⟩ | ⟨rfl, hid⟩⟩ := ShownLog.mem_handle hr
    · exact hknown r hr₀ htick hanswer
    · rcases (hhandled r₀ hr₀ hid).2 with ⟨hsame, hspan⟩ | hall
      · rw [(ShownLog.handled_keeps _ r₀).2.1] at htick
        rw [hsame] at hanswer
        rw [hspan]
        exact hknown r₀ hr₀ htick hanswer
      · exact hall
  · show Phase _ (s.content (.run s.runFile))
    cases h.phase with
    | opening r hrequests horigin hopened hsettled hlive hbusy hintervals =>
      obtain ⟨r', hr', hid, horigin', -⟩ := handle_singleton hrequests id
      exact .opening r' hr' (horigin'.trans horigin) (hid ▸ hopened) hsettled hlive hbusy hintervals
    | tailing t hsettled hlive hpolls htimer hintervals hcovers =>
      refine .tailing t hsettled hlive ?_ htimer hintervals hcovers
      rcases hpolls with ⟨hnone, hbusy⟩ | ⟨r, hrequests, horigin, hoffset, hbusy⟩
      · refine .inl ⟨?_, hbusy⟩
        show s.requests.map _ = []
        rw [hnone]
        rfl
      · obtain ⟨r', hr', -, horigin', hoffset'⟩ := handle_singleton hrequests id
        exact .inr ⟨r', hr', horigin'.trans horigin, hoffset'.trans hoffset, hbusy⟩
    | stopped hsettled hlive hrequests hintervals hfinished hcovers =>
      refine .stopped hsettled hlive ?_ hintervals hfinished hcovers
      show s.requests.map _ = []
      rw [hrequests]
      rfl

/-! ### Messages -/

/-- A status of another job changes nothing about this one. -/
theorem any_setStatus_of_ne {name other status : String} (h : other ≠ name)
    (jobs : List (String × String)) :
    ((setStatus other status jobs).any fun j => j.1 = name && j.2 = "running") =
      jobs.any fun j => j.1 = name && j.2 = "running" := by
  induction jobs with
  | nil => rfl
  | cons j jobs ih =>
    rw [setStatus]
    split
    · next hj =>
      have hne : j.1 ≠ name := hj ▸ h
      rw [List.any_cons, List.any_cons]
      simp [hne]
    · rw [List.any_cons, List.any_cons, ih]

/-- A job that runs is still running after a message that it is. -/
theorem any_setStatus_running {name : String} {jobs : List (String × String)}
    (h : (jobs.any fun j => j.1 = name && j.2 = "running") = true) :
    ((setStatus name "running" jobs).any fun j => j.1 = name && j.2 = "running") = true := by
  induction jobs with
  | nil => cases h
  | cons j jobs ih =>
    rw [setStatus]
    split
    · next hj => simp [hj]
    · next hj =>
      rw [List.any_cons] at h ⊢
      have hrest : (jobs.any fun j => j.1 = name && j.2 = "running") = true := by
        simpa [hj] using h
      rw [ih hrest, Bool.or_true]

theorem Tails.message {s : RunViewer} (h : Tails s) (htimely : Timely s .message) :
    Tails (step s .message) := by
  rw [step]
  split
  · exact h
  · next m ms hmessages =>
    obtain ⟨name, status⟩ := m
    have hset : Tails { s with messages := ms, jobs := setStatus name status s.jobs } := by
      refine ⟨h.requests, h.offset, ?_, ?_, h.phase.frame rfl id⟩
      · show ((setStatus name status s.jobs).any fun j =>
          j.1 = s.runName && j.2 = "running") = false → _
        intro hnot
        by_cases hname : name = s.runName
        · subst hname
          by_cases hrunning : status = "running"
          · -- It was not running before either.
            subst hrunning
            refine h.ended ?_
            cases hold : s.isRunning s.runName with
            | false => rfl
            | true =>
              rw [any_setStatus_running hold] at hnot
              cases hnot
          · -- The final status: what is in flight is about the whole log.
            refine ⟨h.messages status (by rw [hmessages]; exact List.mem_cons_self) hrunning, ?_⟩
            exact htimely ⟨status, ms, hmessages, hrunning⟩
        · rw [any_setStatus_of_ne hname] at hnot
          exact h.ended hnot
      · intro st hst hne
        exact h.messages st (by rw [hmessages]; exact List.mem_cons_of_mem _ hst) hne
    rw [onLiveMessage]
    split
    · next hpoll =>
      rw [Bool.and_eq_true, Bool.and_eq_true] at hpoll
      exact hset.tickRunTail hpoll.1.1
    · exact hset

/-! ### Answers -/

/-- The first answer is all there is. -/
theorem TailAnswer.covers {file : Bytes} {r : LogRequest} {a : LogAnswer} (h : TailAnswer file r a)
    {stop : Nat} (hstop : stop ≤ r.span.2) : Covers file a.text [r.span] stop where
  text := by
    rw [h.text]
    exact (List.append_nil _).symm
  inside p hp := by
    rw [List.mem_singleton.mp hp]
    exact h.inside
  covered := ⟨r.span, [], rfl, fun i hi hlt => ⟨r.span, List.mem_singleton_self _, hi, by omega⟩⟩

/-- An answer from where the text ends is added to it. -/
theorem TailAnswer.covers_append {file : Bytes} {r : LogRequest} {a : LogAnswer}
    (ha : TailAnswer file r a) {text : String} {spans : List (Nat × Nat)} {old : Nat}
    (h : Covers file text spans old) (hold : r.span.1 = old) {stop : Nat}
    (hstop : stop ≤ r.span.2) :
    Covers file (text ++ a.text) (spans ++ [r.span]) stop where
  text := by
    rw [toUtf8_append, h.text, ha.text, List.flatMap_append, List.flatMap_singleton]
  inside p hp := by
    rcases List.mem_append.mp hp with hp | hp
    · exact h.inside p hp
    · rw [List.mem_singleton.mp hp]
      exact ha.inside
  covered := by
    obtain ⟨first, rest, hspans, hcovered⟩ := h.covered
    refine ⟨first, rest ++ [r.span], by rw [hspans]; rfl, ?_⟩
    intro i hi hlt
    by_cases hbefore : i < old
    · obtain ⟨p, hp, hin⟩ := hcovered i hi hbefore
      exact ⟨p, List.mem_append_left _ hp, hin⟩
    · exact ⟨r.span, List.mem_append_right _ (List.mem_singleton_self _), by omega, by omega⟩

theorem forget_singleton {s : ShownLog} {r : LogRequest} (h : s.requests = [r]) :
    (s.forget r.id).requests = [] := by
  rw [ShownLog.forget, h]
  simp

/-- The log is there, and is polled from now on. -/
theorem Tails.opened {s : RunViewer} (h : Tails s) {r : LogRequest} {a : LogAnswer}
    (hrequests : s.requests = [r]) (horigin : r.origin = .openRun true)
    (hopened : s.lastOpen = some r.id) (hbusy : s.runTailBusy = false)
    (hintervals : s.intervals = []) (ha : r.answer = some a) :
    Tails ({ s with toShownLog := s.toShownLog.answered r a }.openRunDone true) := by
  have hanswer := (h.requests r (by rw [hrequests]; exact List.mem_cons_self)).answer a ha
  obtain ⟨n, hn, hle⟩ := hanswer.offset
  have hlog : s.toShownLog.answered r a =
      { s.forget r.id with
        runText := a.text, runOffset := n, runTruncated := a.truncated, spans := [r.span]
        settled := true } := by
    rw [ShownLog.answered, ShownLog.store, horigin, hn, hopened, decide_eq_true rfl, Bool.or_true]
    rfl
  rw [hlog]
  have hnone := forget_singleton hrequests
  refine ⟨?_, hle.trans hanswer.inside, ?_, h.messages, ?_⟩
  · intro r' hr'
    exact absurd hr' (hnone ▸ List.not_mem_nil)
  · intro hnot
    exact ⟨(h.ended hnot).1, fun r' hr' => absurd hr' (hnone ▸ List.not_mem_nil)⟩
  · refine .tailing s.nextInterval rfl rfl (.inl ⟨hnone, hbusy⟩) rfl ?_ (hanswer.covers hle)
    show s.intervals ++ [s.nextInterval] = [s.nextInterval]
    rw [hintervals]
    rfl

/-- A poll is answered; if the job is no longer running, this was the last one. -/
theorem Tails.polled {s : RunViewer} (h : Tails s) {t : Nat} {r : LogRequest} {a : LogAnswer}
    (hsettled : s.settled = true) (hlive : s.runLive = true) (htimer : s.runTimer = some t)
    (hintervals : s.intervals = [t])
    (hcovers : Covers (s.content (.run s.runFile)) s.runText s.spans s.runOffset)
    (hrequests : s.requests = [r]) (horigin : r.origin = .tickRunTail)
    (hasked : r.offset = some s.runOffset) (ha : r.answer = some a) :
    Tails ({ s with toShownLog := s.toShownLog.answered r a }.tickRunTailDone) := by
  have hmem : r ∈ s.requests := by
    rw [hrequests]
    exact List.mem_cons_self
  have hanswer := (h.requests r hmem).answer a ha
  obtain ⟨n, hn, hle⟩ := hanswer.offset
  have hlog : s.toShownLog.answered r a =
      { s.forget r.id with
        runText := s.runText ++ a.text, runOffset := n, spans := s.spans ++ [r.span]
        settled := true } := by
    rw [ShownLog.answered, ShownLog.store, horigin, hn, hsettled, Bool.true_or]
    rfl
  rw [hlog]
  have hnone := forget_singleton hrequests
  have hstart := hanswer.asked _ hasked
  rw [tickRunTailDone]
  dsimp only
  split
  · next hrunning =>
    refine ⟨?_, hle.trans hanswer.inside, ?_, h.messages, ?_⟩
    · intro r' hr'
      exact absurd hr' (hnone ▸ List.not_mem_nil)
    · intro hnot
      exact absurd (hrunning.symm.trans hnot) (by decide)
    · exact .tailing t rfl hlive (.inl ⟨hnone, rfl⟩) htimer hintervals
        (hanswer.covers_append hcovers hstart hle)
  · next hstopped =>
    -- This was the last poll, and its answer was about the whole log.
    have hover := h.ended (Bool.eq_false_of_not_eq_true hstopped)
    have hall := hover.2 r hmem horigin (by rw [ha]; rfl)
    rw [stopRunTail]
    dsimp only
    rw [htimer]
    refine ⟨?_, hle.trans hanswer.inside, ?_, h.messages, ?_⟩
    · intro r' hr'
      exact absurd hr' (hnone ▸ List.not_mem_nil)
    · intro _
      exact ⟨hover.1, fun r' hr' => absurd hr' (hnone ▸ List.not_mem_nil)⟩
    · refine .stopped rfl rfl hnone ?_ hover.1 (hanswer.covers_append hcovers hstart hall.ge)
      show s.intervals.filter (· ≠ t) = []
      rw [hintervals]
      simp

theorem Tails.answer {s : RunViewer} (h : Tails s) (id : Nat) : Tails (step s (.answer id)) := by
  rw [step]
  split
  · next r hr =>
    split
    · next a ha =>
      obtain ⟨hmem, -⟩ := mem_of_find hr
      cases h.phase with
      | opening r' hrequests horigin hopened _ _ hbusy hintervals =>
        obtain rfl := List.mem_singleton.mp (hrequests ▸ hmem)
        rw [horigin]
        exact h.opened hrequests horigin hopened hbusy hintervals ha
      | tailing t hsettled hlive hpolls htimer hintervals hcovers =>
        rcases hpolls with ⟨hnone, -⟩ | ⟨r', hrequests, horigin, hasked, -⟩
        · rw [hnone] at hmem
          cases hmem
        · obtain rfl := List.mem_singleton.mp (hrequests ▸ hmem)
          rw [horigin]
          exact h.polled hsettled hlive htimer hintervals hcovers hrequests horigin hasked ha
      | stopped _ _ hrequests =>
        rw [hrequests] at hmem
        cases hmem
    · exact h
  · exact h

theorem Tails.next {s : RunViewer} (h : Tails s) {e : ViewerEvent} (hstays : Stays s e)
    (htimely : Timely s e) : Tails (machine.next s e) := by
  cases e with
  | interval id => exact h.interval id
  | statusChanged name status => exact h.statusChanged name status
  | message => exact h.message htimely
  | append target chunk => exact h.append target chunk hstays
  | handle id => exact h.handle id htimely
  | answer id => exact h.answer id
  | openRun file name live => exact hstays.elim
  | openRsyncRun job file => exact hstays.elim
  | loadFullLog => exact hstays.elim
  | closeRun => exact hstays.elim
  | loadJobs jobs => exact hstays.elim
  | fail id => exact hstays.elim

/-- **A live log is shown to its end.** After a run is opened live while its job is
running, and after any events that stay on it and are timely, once the tail has stopped
the text has every byte of the finished log, from where it began. -/
theorem shown_to_end (s : RunViewer) (file name : String) (hidle : Idle s name)
    (es : List ViewerEvent) (hstays : machine.Along Stays (s.openRun file name true) es)
    (htimely : machine.Along Timely (s.openRun file name true) es)
    (hopen : (machine.run (s.openRun file name true) es).settled = true)
    (hstopped : (machine.run (s.openRun file name true) es).runLive = false) :
    ShownToEnd (machine.run (s.openRun file name true) es) := by
  have htails : Tails (machine.run (s.openRun file name true) es) :=
    invariant_run (M := machine) (I := Tails) (P := fun s e => Stays s e ∧ Timely s e)
      (fun _ _ h he => h.next he.1 he.2) (tails_openRun hidle) (along_and hstays htimely)
  cases htails.phase with
  | opening r _ _ _ hsettled => exact absurd (hsettled.symm.trans hopen) (by decide)
  | tailing t _ hlive => exact absurd (hlive.symm.trans hstopped) (by decide)
  | stopped _ _ _ _ hfinished hcovers => exact ⟨hfinished, hcovers⟩

/-! ### Two runs -/

instance decidableStays (s : RunViewer) : (e : ViewerEvent) → Decidable (Stays s e)
  | .append target _ => inferInstanceAs (Decidable (target = .run s.runFile → s.runOver = false))
  | .interval _ | .statusChanged _ _ | .message | .handle _ | .answer _ => .isTrue trivial
  | .openRun _ _ _ | .openRsyncRun _ _ | .loadFullLog | .closeRun | .loadJobs _ | .fail _ =>
    .isFalse id

/-- A test for `Timely` that can be run, for ASCII logs. -/
def prompt (s : RunViewer) : ViewerEvent → Bool
  | .message => s.requests.all fun r =>
    r.answer.isNone || r.span.2 = (s.content (.run s.runFile)).length
  | .handle _ => s.requests.all fun r =>
    match r.read with
    | some (.reading _ pos _) => ((s.content r.target).drop pos).all fun b => b < 128 && b ≠ 13
    | _ => true
  | _ => true

theorem timely_of_prompt {s : RunViewer} {e : ViewerEvent} (h : prompt s e = true) :
    Timely s e := by
  cases e with
  | message =>
    intro _ r hr _ hanswer
    have hcheck := List.all_eq_true.mp h r hr
    rw [Bool.or_eq_true, decide_eq_true_eq] at hcheck
    refine hcheck.resolve_left ?_
    intro hnone
    rw [Option.isNone_iff_eq_none.mp hnone] at hanswer
    cases hanswer
  | handle id =>
    intro r hr _ size pos truncated hreading
    refine plainText_of_ascii ?_
    intro b hb
    have hcheck := List.all_eq_true.mp h r hr
    rw [hreading] at hcheck
    have hbyte := List.all_eq_true.mp hcheck b hb
    rwa [Bool.and_eq_true, decide_eq_true_eq, decide_eq_true_eq] at hbyte
  | _ => trivial

/-- The page of a job that runs. -/
def photosRunning : RunViewer := start [("photos", "running")] twoLogs

/-- The last line is written, and the message that the job stopped arrives. -/
def photosStops : List ViewerEvent :=
  [.append (.run "photos") (toUtf8 "done\n"), .statusChanged "photos" .finished, .message]

/-- The log is there before the job stops. -/
def pollAfterEnd : List ViewerEvent :=
  handleAll 0 ++ [.answer 0] ++ photosStops ++ handleAll 1 ++ [.answer 1]

/-- A poll is answered by the daemon before the job stops, and the page gets the answer
after the message. -/
def pollBeforeEnd : List ViewerEvent :=
  handleAll 0 ++ [.answer 0, .interval 1] ++ handleAll 1 ++ photosStops ++ [.answer 1]

theorem idle_photosRunning : Idle photosRunning "photos" where
  requests := rfl
  busy := rfl
  intervals _ hi := absurd hi List.not_mem_nil
  running := by decide

theorem shown_to_end_pollAfterEnd :
    Idle photosRunning "photos" ∧
      machine.Along Stays (photosRunning.openRun "photos" "photos" true) pollAfterEnd ∧
      machine.Along Timely (photosRunning.openRun "photos" "photos" true) pollAfterEnd ∧
      ShownToEnd (machine.run (photosRunning.openRun "photos" "photos" true) pollAfterEnd) ∧
      (machine.run (photosRunning.openRun "photos" "photos" true) pollAfterEnd).runText =
        "one\ndone\n" := by
  have hstays : machine.Along Stays (photosRunning.openRun "photos" "photos" true) pollAfterEnd := by
    decide +kernel
  have hprompt : machine.Along (fun s e => prompt s e = true)
      (photosRunning.openRun "photos" "photos" true) pollAfterEnd := by decide +kernel
  have htimely : machine.Along Timely (photosRunning.openRun "photos" "photos" true)
      pollAfterEnd :=
    along_of_invariant (I := fun _ => True) (fun _ _ _ _ => trivial)
      (fun _ _ _ h => timely_of_prompt h) trivial hprompt
  exact ⟨idle_photosRunning, hstays, htimely,
    shown_to_end _ _ _ idle_photosRunning _ hstays htimely (by decide +kernel)
      (by decide +kernel), by decide +kernel⟩

/-- The message finds a poll in flight and sends none; the answer to that poll ends the
tail without the last line. -/
theorem pollBeforeEnd_loses :
    Idle photosRunning "photos" ∧
      machine.Along Stays (photosRunning.openRun "photos" "photos" true) pollBeforeEnd ∧
      (machine.run (photosRunning.openRun "photos" "photos" true) pollBeforeEnd).settled = true ∧
      (machine.run (photosRunning.openRun "photos" "photos" true) pollBeforeEnd).runLive = false ∧
      (machine.run (photosRunning.openRun "photos" "photos" true) pollBeforeEnd).runText =
        "one\n" ∧
      (machine.run (photosRunning.openRun "photos" "photos" true) pollBeforeEnd).content
        (.run "photos") = toUtf8 "one\ndone\n" ∧
      ¬ShownToEnd (machine.run (photosRunning.openRun "photos" "photos" true) pollBeforeEnd) := by
  refine ⟨idle_photosRunning, by decide +kernel, by decide +kernel, by decide +kernel,
    by decide +kernel, by decide +kernel, ?_⟩
  rintro ⟨-, -, -, first, rest, hspans, hcovered⟩
  have hparts : (machine.run (photosRunning.openRun "photos" "photos" true)
      pollBeforeEnd).spans = [(0, 4), (4, 4)] := by decide +kernel
  rw [hparts] at hspans hcovered
  obtain ⟨rfl, rfl⟩ := List.cons.inj hspans
  obtain ⟨p, hp, hle, hlt⟩ := hcovered 4 (by decide) (by decide +kernel)
  rcases List.mem_cons.mp hp with rfl | hp
  · exact absurd hlt (by decide)
  · rw [List.mem_singleton.mp hp] at hlt
    exact absurd hlt (by decide)

end RunViewer

end TiBackup
