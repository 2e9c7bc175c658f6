import TiBackup.Lib.Utf8
import TiBackup.Live.LogTail
import TiBackup.Model.LogPage
import TiBackup.Model.RunLog

/-!
# TiBackup.Live.Reload

**What is in the log view after a reload.** It ought to have the lines of the text that
was returned and those that were broadcast since the server read the log, each of them
once and in the order of the file. The answer and the messages take two ways, and the
view is emptied only when the answer is there:

* A line that is in the text and arrives as a message afterwards is shown twice.
* A line that is not in the text and arrives as a message before the answer is gone,
  whether it was written after the server read the log or is too far up in it.
* So is everything that came after the text, when the answer to an earlier `loadLogs`
  is processed last.

None of this happens when the answer has all that was not broadcast before the server
read the log, and is processed at a moment at which exactly those lines are still to come
that were written afterwards (`InTime`). Runs in which every answer is so, and is not
followed by an earlier one, keep the view right (`reload_in_order`).
-/

namespace TiBackup

open Lib Lib.Machine

/-! ### Lines of a part of the log -/

/-- The lines the tail sends for the log from one position to another. -/
def linesIn (log : Bytes) (i j : Nat) : List String :=
  (WsHub.logLines (slice log i j)).map fromUtf8

/-- Position `i` of a log that has got whole lines only since it had the length `n` is
between two of them. -/
structure AtLine (n : Nat) (log : Bytes) (i : Nat) : Prop where
  from_le : n ≤ i
  le_length : i ≤ log.length
  lineEnd : LineEnd (slice log n i)

theorem LineEnd.isSuffix {xs ys : Bytes} (h : LineEnd xs) (hsuffix : ys <:+ xs) : LineEnd ys := by
  rcases h with rfl | ⟨xs, rfl⟩
  · exact .inl (List.suffix_nil.mp hsuffix)
  · rcases List.eq_nil_or_concat ys with rfl | ⟨init, last, rfl⟩
    · exact .inl rfl
    · obtain ⟨front, hfront⟩ := hsuffix
      rw [List.concat_eq_append, ← List.append_assoc] at hfront
      have hlast : last = 10 := List.singleton_inj.mp (List.append_inj' hfront rfl).2
      exact .inr ⟨init, by rw [hlast, List.concat_eq_append]⟩

@[simp] theorem linesIn_self (log : Bytes) (i : Nat) : linesIn log i i = [] := by
  rw [linesIn, slice, List.drop_eq_nil_of_le (List.length_take_le _ _), WsHub.logLines_nil]
  rfl

/-- What is appended does not change the lines before it. -/
theorem linesIn_append_left (log more : Bytes) (i : Nat) {j : Nat} (h : j ≤ log.length) :
    linesIn (log ++ more) i j = linesIn log i j := by
  rw [linesIn, slice_append log more i h, linesIn]

/-- The lines of a part, cut between two lines. -/
theorem AtLine.linesIn_append {n : Nat} {log : Bytes} {i j k : Nat} (h : AtLine n log j)
    (hi : n ≤ i) (hij : i ≤ j) (hjk : j ≤ k) :
    linesIn log i j ++ linesIn log j k = linesIn log i k := by
  have hend : LineEnd (slice log i j) := by
    refine h.lineEnd.isSuffix ?_
    rw [← slice_append_slice log hi hij]
    exact List.suffix_append _ _
  rw [linesIn, linesIn, linesIn, ← List.map_append, ← WsHub.logLines_append_of_lineEnd hend,
    slice_append_slice log hij hjk]

theorem AtLine.append {n : Nat} {log : Bytes} {i : Nat} (h : AtLine n log i) (more : Bytes) :
    AtLine n (log ++ more) i where
  from_le := h.from_le
  le_length := h.le_length.trans (by simp)
  lineEnd := by
    rw [slice_append log more n h.le_length]
    exact h.lineEnd

/-- The end of a log is between two lines when a line has been written. -/
theorem atLine_length {n : Nat} {log : Bytes} (h : n ≤ log.length) (line : Bytes) :
    AtLine n (log ++ (line ++ [10])) (log ++ (line ++ [10])).length where
  from_le := h.trans (by simp)
  le_length := le_rfl
  lineEnd := by
    rw [slice_length, List.drop_append_of_le_length h, ← List.append_assoc]
    exact .inr ⟨log.drop n ++ line, rfl⟩

/-- Two positions have the same lines behind them, up to the end, if they had before
something was appended. -/
theorem linesIn_append_right {n : Nat} {log : Bytes} (hend : AtLine n log log.length)
    (more : Bytes) {i : Nat} (hi : n ≤ i) (hle : i ≤ log.length) :
    linesIn (log ++ more) i (log ++ more).length =
      linesIn log i log.length ++ linesIn (log ++ more) log.length (log ++ more).length := by
  rw [← linesIn_append_left log more i le_rfl]
  exact ((hend.append more).linesIn_append hi hle (by simp)).symm

/-! ### Lines of the view -/

/-- The last elements of a list and of what is appended to its last elements. -/
theorem drop_drop_append {α : Type} (k : Nat) (xs ys : List α) :
    (xs.drop (xs.length - k) ++ ys).drop ((xs.drop (xs.length - k) ++ ys).length - k) =
      (xs ++ ys).drop ((xs ++ ys).length - k) := by
  have hlength : xs.length - k + ((xs.drop (xs.length - k) ++ ys).length - k) =
      (xs ++ ys).length - k := by
    simp only [List.length_append, List.length_drop]
    omega
  rw [← hlength, ← List.drop_drop, List.drop_append_of_le_length (Nat.sub_le _ _)]

theorem lastEntries_append (xs ys : List LogLine) :
    lastEntries (lastEntries xs ++ ys) = lastEntries (xs ++ ys) := by
  have hlast : ∀ entries, lastEntries entries = entries.drop (entries.length - 1000) := by
    intro entries
    unfold lastEntries
    rfl
  generalize 1000 = k at hlast
  rw [hlast, hlast, hlast]
  exact drop_drop_append k xs ys

theorem pushLog_nil (text : String) :
    pushLog [] text = lastEntries (logEntries (splitLines text)) := rfl

/-- A line is added as one entry, or none. -/
theorem pushLog_line (lines : List String) {line : String} (h : '\n' ∉ line.toList) :
    pushLog (lastEntries (logEntries lines)) line = lastEntries (logEntries (lines ++ [line])) := by
  have hsplit : splitLines line = [line] := by
    rw [splitLines, List.splitOn_eq_singleton h, List.map_singleton, String.ofList_toList]
  rw [pushLog, hsplit, lastEntries_append, logEntries_append]

/-- The separator is in none of the pieces. -/
theorem not_mem_of_mem_splitOn {x : UInt8} {piece bs : Bytes} (h : piece ∈ bs.splitOn x) :
    x ∉ piece := by
  induction bs generalizing piece with
  | nil =>
    rw [List.splitOn_nil, List.mem_singleton] at h
    simp [h]
  | cons b bs ih =>
    rw [List.splitOn_cons_eq_if_modifyHead] at h
    split at h
    · rcases List.mem_cons.mp h with rfl | hmem
      · simp
      · exact ih hmem
    · next hne =>
      cases hsplit : bs.splitOn x with
      | nil => exact absurd hsplit (List.splitOn_ne_nil _ _)
      | cons c cs =>
        rw [hsplit] at h ih
        rcases List.mem_cons.mp h with rfl | hmem
        · rw [List.mem_cons, not_or]
          exact ⟨Ne.symm (by simpa using hne), ih List.mem_cons_self⟩
        · exact ih (List.mem_cons_of_mem _ hmem)

/-- A line of the log is sent as one line. -/
theorem not_mem_linesIn {log : Bytes} {i j : Nat} {line : String} (h : line ∈ linesIn log i j) :
    '\n' ∉ line.toList := by
  obtain ⟨bytes, hbytes, rfl⟩ := List.mem_map.mp h
  intro hmem
  have hencoded := infix_of_mem_fromUtf8 (by decide) hmem
  have hten : 10 ∈ bytes := hencoded.subset (by decide)
  exact not_mem_of_mem_splitOn (List.mem_of_mem_filter hbytes) hten

/-! ### What ought to be in the view -/

/-- Where the part of a log begins that is answered. -/
def answerStart (log : Bytes) : Nat :=
  log.length - ([10].intercalate (Api.mainLogLines "200" log)).length

/-- The beginning of the line in which that part begins. -/
def answerLine (log : Bytes) : Nat :=
  answerStart log - (openLine (log.take (answerStart log))).length

theorem answerLine_le (log : Bytes) : answerLine log ≤ log.length :=
  (Nat.sub_le _ _).trans (Nat.sub_le _ _)

namespace LogPage

open Tail (lineValues lineValues_logTail)

/-- The lines that were in the text or have been broadcast since the server read the log:
what was broadcast from before the text, the text, and what was broadcast from behind
it. -/
def expected (s : LogPage) (a : LogsAnswer) : List String :=
  linesIn s.log a.sent (min (answerLine a.log) s.hub.logPos) ++ splitLines a.text ++
    linesIn s.log a.log.length s.hub.logPos

/-- Once the latest answer has been processed and nothing is on its way, the view has the
last 1000 of these lines. -/
def Kept (s : LogPage) : Prop :=
  ∀ a, s.shown = some a → s.messages = [] → s.logLines = lastEntries (logEntries (s.expected a))

/-- The lines that are still to come, with the log as it is. -/
def toCome (s : LogPage) : List String :=
  lineValues s.messages ++ linesIn s.log s.hub.logPos s.log.length

/-- What is still to come is what was written after the log was read for this answer, and
all that had not been broadcast by then is in the answer. -/
structure InTime (s : LogPage) (a : LogsAnswer) : Prop where
  toCome_eq : s.toCome = linesIn s.log a.log.length s.log.length
  reaches : linesIn s.log a.sent (answerLine a.log) = []

/-- The answer to the latest `loadLogs` is processed in time, and no other one after
it. -/
def Timely (s : LogPage) : LogPageEvent → Prop
  | .answered id =>
    ∀ a, s.answerOf id = some a → if id + 1 = s.nextRequest then s.InTime a else s.shown = none
  | _ => True

/-! ### The invariant -/

/-- An answer was read from a log between two lines, when at least as much as at the start
and at most as much as by now had been broadcast. -/
structure ReadFrom (n : Nat) (s : LogPage) (a : LogsAnswer) : Prop where
  start_le : n ≤ a.sent
  sent_le : a.sent ≤ s.hub.logPos
  atLine : AtLine n s.log a.log.length

/-- The view has the text and what was delivered since, and the rest is to come. -/
structure Merged (n : Nat) (s : LogPage) (a : LogsAnswer) : Prop extends ReadFrom n s a where
  reaches : linesIn s.log a.sent (answerLine a.log) = []
  merged : ∃ delivered, s.logLines = lastEntries (logEntries (splitLines a.text ++ delivered)) ∧
    delivered ++ s.toCome = linesIn s.log a.log.length s.log.length

/-- What holds in the runs of a daemon that started with a log of length `n`. -/
structure Fits (n : Nat) (s : LogPage) : Prop where
  pos : AtLine n s.log s.hub.logPos
  full : AtLine n s.log s.log.length
  plain : ∀ line ∈ lineValues s.messages, '\n' ∉ line.toList
  answers : ∀ r ∈ s.requests, ∀ a, r.answer = some a → s.ReadFrom n a
  shown : ∀ a, s.shown = some a → s.Merged n a

theorem atLine_self (log : Bytes) : AtLine log.length log log.length where
  from_le := le_rfl
  le_length := le_rfl
  lineEnd := by
    rw [slice_length, List.drop_length]
    exact .inl rfl

theorem fits_start (log : Bytes) : (start log).Fits log.length where
  pos := atLine_self log
  full := atLine_self log
  plain _ h := absurd h List.not_mem_nil
  answers _ h := absurd h List.not_mem_nil
  shown _ h := by cases h

variable {n : Nat} {s : LogPage}

/-- With nothing on its way, the lines delivered are those that were broadcast. -/
theorem Merged.delivered_eq {a : LogsAnswer} (h : s.Merged n a) (hs : s.Fits n)
    {delivered : List String} (hmessages : s.messages = [])
    (hdelivered : delivered ++ s.toCome = linesIn s.log a.log.length s.log.length) :
    delivered = linesIn s.log a.log.length s.hub.logPos := by
  rw [toCome, hmessages] at hdelivered
  change delivered ++ linesIn s.log s.hub.logPos s.log.length = _ at hdelivered
  rcases Nat.le_total a.log.length s.hub.logPos with hle | hle
  · -- The log was broadcast on beyond the text.
    rw [← hs.pos.linesIn_append h.atLine.from_le hle hs.pos.le_length] at hdelivered
    exact List.append_cancel_right hdelivered
  · -- All that was broadcast is in the text, and nothing came of it.
    rw [← h.atLine.linesIn_append hs.pos.from_le hle h.atLine.le_length, ← List.append_assoc]
      at hdelivered
    have hnone := List.append_left_eq_self.mp hdelivered
    rw [(List.append_eq_nil_iff.mp hnone).1, linesIn, slice, List.drop_eq_nil_of_le,
      WsHub.logLines_nil]
    · rfl
    · exact (List.length_take_le _ _).trans hle

/-- Nothing was broadcast from before the text since the server read the log. -/
theorem Merged.before_eq {a : LogsAnswer} (h : s.Merged n a) (hs : s.Fits n) :
    linesIn s.log a.sent (min (answerLine a.log) s.hub.logPos) = [] := by
  rcases Nat.le_total (answerLine a.log) s.hub.logPos with hle | hle
  · rw [Nat.min_eq_left hle]
    exact h.reaches
  · rw [Nat.min_eq_right hle]
    have hreaches := h.reaches
    rw [← hs.pos.linesIn_append h.start_le h.sent_le hle] at hreaches
    exact (List.append_eq_nil_iff.mp hreaches).1

theorem Fits.kept (h : s.Fits n) : s.Kept := by
  intro a ha hmessages
  have hmerged := h.shown a ha
  obtain ⟨delivered, hlines, hdelivered⟩ := hmerged.merged
  rw [hlines, hmerged.delivered_eq h hmessages hdelivered, expected, hmerged.before_eq h,
    List.nil_append]

/-! ### Steps -/

/-- What happens between two states without an answer being processed: the log and the
part that is broadcast grow, what is delivered is in the view, and what is added to the
log is still to come. -/
structure Carries (s s' : LogPage) : Prop where
  log : ∃ more, s'.log = s.log ++ more
  pos : s.hub.logPos ≤ s'.hub.logPos
  lines : ∃ delivered,
    (∀ before, s.logLines = lastEntries (logEntries before) →
      s'.logLines = lastEntries (logEntries (before ++ delivered))) ∧
    delivered ++ s'.toCome = s.toCome ++ linesIn s'.log s.log.length s'.log.length

theorem ReadFrom.carry {s' : LogPage} {a : LogsAnswer} (h : s.ReadFrom n a) (hc : Carries s s') :
    s'.ReadFrom n a where
  start_le := h.start_le
  sent_le := h.sent_le.trans hc.pos
  atLine := by
    obtain ⟨more, hmore⟩ := hc.log
    rw [hmore]
    exact h.atLine.append more

theorem Merged.carry {s' : LogPage} {a : LogsAnswer} (h : s.Merged n a) (hs : s.Fits n)
    (hc : Carries s s') : s'.Merged n a := by
  obtain ⟨more, hmore⟩ := hc.log
  obtain ⟨delivered, hlines, htoCome⟩ := hc.lines
  obtain ⟨before, hbefore, hsum⟩ := h.merged
  refine ⟨h.toReadFrom.carry hc, ?_, before ++ delivered, ?_, ?_⟩
  · rw [hmore, linesIn_append_left _ _ _ ((answerLine_le _).trans h.atLine.le_length)]
    exact h.reaches
  · rw [hlines _ hbefore, List.append_assoc]
  · rw [List.append_assoc, htoCome, ← List.append_assoc, hsum, hmore]
    exact (linesIn_append_right hs.full more h.atLine.from_le h.atLine.le_length).symm

/-- A step that leaves the log and the view alone. -/
theorem carries_of_eq {s' : LogPage} (hlog : s'.log = s.log) (hpos : s.hub.logPos ≤ s'.hub.logPos)
    (hlines : s'.logLines = s.logLines) (htoCome : s'.toCome = s.toCome) : Carries s s' where
  log := ⟨[], by rw [hlog, List.append_nil]⟩
  pos := hpos
  lines := by
    refine ⟨[], ?_, ?_⟩
    · intro before hbefore
      rw [hlines, hbefore, List.append_nil]
    · rw [hlog, htoCome, linesIn_self, List.append_nil, List.nil_append]

/-- Such a step keeps the invariant as far as answers are concerned. -/
theorem Fits.carry {s' : LogPage} (h : s.Fits n) (hc : Carries s s')
    (hrequests : s'.requests.Sublist s.requests) (hshown : s'.shown = s.shown)
    (hpos : AtLine n s'.log s'.hub.logPos) (hfull : AtLine n s'.log s'.log.length)
    (hplain : ∀ line ∈ lineValues s'.messages, '\n' ∉ line.toList) : s'.Fits n where
  pos := hpos
  full := hfull
  plain := hplain
  answers r hr a ha := (h.answers r (hrequests.subset hr) a ha).carry hc
  shown a ha := (h.shown a (hshown ▸ ha)).carry h hc

theorem lineValues_append (msgs more : List Message) :
    lineValues (msgs ++ more) = lineValues msgs ++ lineValues more := List.filterMap_append

theorem Fits.append (h : s.Fits n) (line : Bytes) : (s.step (.append line)).Fits n := by
  have hc : Carries s (s.step (.append line)) := by
    refine ⟨⟨line ++ [10], rfl⟩, le_rfl, [], ?_, ?_⟩
    · intro before hbefore
      rw [List.append_nil]
      exact hbefore
    · have hrest := linesIn_append_right h.full (line ++ [10]) h.pos.from_le h.pos.le_length
      exact (congrArg (lineValues s.messages ++ ·) hrest).trans (List.append_assoc _ _ _).symm
  exact h.carry hc (List.Sublist.refl _) rfl (h.pos.append _) (atLine_length h.full.from_le line)
    h.plain

/-- What a callback sends. -/
theorem step_logChanged (h : s.Fits n) : s.step .logChanged =
    { s with
      hub := { s.hub with logPos := s.log.length }
      messages := s.messages ++
        (WsHub.logLines (s.log.drop s.hub.logPos)).map fun line => .logTail (fromUtf8 line) } := by
  rw [step, WsHub.emitLogTail_of_le h.pos.le_length]

theorem Fits.logChanged (h : s.Fits n) : (s.step .logChanged).Fits n := by
  have hlines : lineValues (s.step .logChanged).messages =
      lineValues s.messages ++ linesIn s.log s.hub.logPos s.log.length := by
    rw [step_logChanged h, lineValues_append, lineValues_logTail, linesIn, slice_length]
  have hc : Carries s (s.step .logChanged) := by
    refine carries_of_eq rfl ?_ rfl ?_
    · rw [step_logChanged h]
      exact h.pos.le_length
    · rw [toCome, hlines, step_logChanged h, linesIn_self, List.append_nil]
      rfl
  refine h.carry hc (List.Sublist.refl _) rfl ?_ h.full ?_
  · rw [step_logChanged h]
    exact h.full
  · intro line hline
    rw [hlines, List.mem_append] at hline
    exact hline.elim (h.plain line) not_mem_linesIn

theorem Fits.statusChanged (h : s.Fits n) (name : String) (status : BackupStatus) :
    (s.step (.statusChanged name status)).Fits n := by
  have hlines : lineValues (s.step (.statusChanged name status)).messages =
      lineValues s.messages := by
    show lineValues (s.messages ++ [.jobStatus name (statusString status)]) = _
    rw [lineValues_append]
    exact List.append_nil _
  have hc : Carries s (s.step (.statusChanged name status)) := by
    refine carries_of_eq rfl le_rfl rfl ?_
    rw [toCome, hlines]
    rfl
  refine h.carry hc (List.Sublist.refl _) rfl h.pos h.full ?_
  rw [hlines]
  exact h.plain

/-- What a message does when it arrives. -/
theorem step_message_cases (s : LogPage) :
    (s.messages = [] ∧ s.step .message = s) ∨
    (∃ line rest, s.messages = .logTail line :: rest ∧
      s.step .message = { s with messages := rest, logLines := pushLog s.logLines line }) ∨
    ∃ msg rest, s.messages = msg :: rest ∧ lineValues s.messages = lineValues rest ∧
      s.step .message = { s with messages := rest } := by
  simp only [step]
  cases s.messages with
  | nil => exact .inl ⟨rfl, rfl⟩
  | cons msg rest =>
    cases msg with
    | logTail line => exact .inr (.inl ⟨line, rest, rfl, rfl⟩)
    | hello version => exact .inr (.inr ⟨_, rest, rfl, rfl, rfl⟩)
    | jobStatus name status => exact .inr (.inr ⟨_, rest, rfl, rfl, rfl⟩)

theorem Fits.message (h : s.Fits n) : (s.step .message).Fits n := by
  rcases step_message_cases s with ⟨-, hstep⟩ | ⟨line, rest, hmessages, hstep⟩ |
    ⟨msg, rest, hmessages, hlines, hstep⟩
  · rw [hstep]
    exact h
  · -- The line is no longer to come, and is in the view.
    have hvalues : lineValues s.messages = line :: lineValues rest := by
      rw [hmessages]
      rfl
    have hplain := h.plain
    rw [hvalues] at hplain
    have hc : Carries s { s with messages := rest, logLines := pushLog s.logLines line } := by
      refine ⟨⟨[], (List.append_nil _).symm⟩, le_rfl, [line], ?_, ?_⟩
      · intro before hbefore
        rw [hbefore, pushLog_line before (hplain line List.mem_cons_self)]
      · rw [linesIn_self, List.append_nil, toCome, toCome, hvalues]
        rfl
    rw [hstep]
    exact h.carry hc (List.Sublist.refl _) rfl h.pos h.full fun line hline =>
      hplain line (List.mem_cons_of_mem _ hline)
  · have hplain := h.plain
    rw [hlines] at hplain
    have hc : Carries s { s with messages := rest } := by
      refine carries_of_eq rfl le_rfl rfl ?_
      rw [toCome, toCome, hlines]
    rw [hstep]
    exact h.carry hc (List.Sublist.refl _) rfl h.pos h.full hplain

theorem Fits.loadLogs (h : s.Fits n) : (s.step .loadLogs).Fits n := by
  have hc : Carries s (s.step .loadLogs) := carries_of_eq rfl le_rfl rfl rfl
  refine ⟨h.pos, h.full, h.plain, ?_, nofun⟩
  intro r hr a ha
  rcases List.mem_append.mp hr with hold | hnew
  · exact (h.answers r hold a ha).carry hc
  · rw [List.mem_singleton.mp hnew] at ha
    cases ha

/-- What the server reads, it reads from the whole log. -/
theorem Fits.readFrom_mainLog (h : s.Fits n) : s.ReadFrom n s.mainLog where
  start_le := h.pos.from_le
  sent_le := le_rfl
  atLine := h.full

theorem Fits.read (h : s.Fits n) (id : Nat) : (s.step (.read id)).Fits n := by
  have hc : Carries s (s.step (.read id)) := carries_of_eq rfl le_rfl rfl rfl
  refine ⟨h.pos, h.full, h.plain, ?_, fun a ha => (h.shown a ha).carry h hc⟩
  intro r hr a ha
  obtain ⟨old, hold, rfl⟩ := List.mem_map.mp hr
  by_cases hread : old.id = id ∧ old.answer = none
  · rw [if_pos hread] at ha
    obtain rfl := Option.some.inj ha
    exact h.readFrom_mainLog.carry hc
  · rw [if_neg hread] at ha
    exact (h.answers old hold a ha).carry hc

theorem Fits.fail (h : s.Fits n) (id : Nat) : (s.step (.fail id)).Fits n := by
  have hc : Carries s (s.step (.fail id)) := carries_of_eq rfl le_rfl rfl rfl
  exact h.carry hc List.filter_sublist rfl h.pos h.full h.plain

theorem answerOf_mem {id : Nat} {a : LogsAnswer} (h : s.answerOf id = some a) :
    ∃ r ∈ s.requests, r.answer = some a := by
  obtain ⟨r, hr, ha⟩ := Option.bind_eq_some_iff.mp h
  exact ⟨r, List.mem_of_find?_eq_some hr, ha⟩

theorem loadLogsDone_log (id : Nat) (a : LogsAnswer) : (s.loadLogsDone id a).log = s.log := by
  rw [loadLogsDone]

theorem loadLogsDone_hub (id : Nat) (a : LogsAnswer) : (s.loadLogsDone id a).hub = s.hub := by
  rw [loadLogsDone]

theorem loadLogsDone_toCome (id : Nat) (a : LogsAnswer) :
    (s.loadLogsDone id a).toCome = s.toCome := by
  rw [loadLogsDone, toCome, toCome]

theorem ReadFrom.loadLogsDone {a b : LogsAnswer} (h : s.ReadFrom n b) (id : Nat) :
    (s.loadLogsDone id a).ReadFrom n b where
  start_le := h.start_le
  sent_le := by
    rw [loadLogsDone_hub]
    exact h.sent_le
  atLine := by
    rw [loadLogsDone_log]
    exact h.atLine

/-- An answer that is in time leaves the rest to the messages. -/
theorem InTime.merged {a : LogsAnswer} (h : s.InTime a) (hread : s.ReadFrom n a) (id : Nat) :
    (s.loadLogsDone id a).Merged n a := by
  refine ⟨hread.loadLogsDone id, ?_, [], ?_, ?_⟩
  · rw [loadLogsDone_log]
    exact h.reaches
  · rw [loadLogsDone, pushLog_nil, List.append_nil]
  · rw [loadLogsDone_toCome, loadLogsDone_log]
    exact h.toCome_eq

theorem Fits.answered (h : s.Fits n) {id : Nat} (htimely : s.Timely (.answered id)) :
    (s.step (.answered id)).Fits n := by
  simp only [step]
  cases hanswer : s.answerOf id with
  | none => exact h
  | some a =>
    have htimely := htimely a hanswer
    show (s.loadLogsDone id a).Fits n
    obtain ⟨r, hr, ha⟩ := answerOf_mem hanswer
    refine ⟨?_, ?_, ?_, ?_, ?_⟩
    · rw [loadLogsDone_log, loadLogsDone_hub]
      exact h.pos
    · rw [loadLogsDone_log]
      exact h.full
    · rw [loadLogsDone]
      exact h.plain
    · intro r hr b hb
      rw [loadLogsDone] at hr
      exact (h.answers r (List.mem_of_mem_filter hr) b hb).loadLogsDone id
    · intro b hb
      by_cases hlatest : id + 1 = s.nextRequest
      · rw [if_pos hlatest] at htimely
        rw [loadLogsDone, if_pos hlatest] at hb
        obtain rfl := Option.some.inj hb
        exact htimely.merged (h.answers r hr a ha) id
      · rw [if_neg hlatest] at htimely
        rw [loadLogsDone, if_neg hlatest, htimely] at hb
        cases hb

theorem Fits.next (h : s.Fits n) {e : LogPageEvent} (htimely : s.Timely e) :
    (machine.next s e).Fits n := by
  cases e with
  | append line => exact h.append line
  | logChanged => exact h.logChanged
  | statusChanged name status => exact h.statusChanged name status
  | message => exact h.message
  | loadLogs => exact h.loadLogs
  | read id => exact h.read id
  | answered id => exact h.answered htimely
  | fail id => exact h.fail id

/-- In a run in which answers are processed in time, the view is right after every
event. -/
theorem reload_in_order (log : Bytes) (es : List LogPageEvent)
    (h : machine.Along Timely (start log) es) :
    machine.Along (fun s e => (machine.next s e).Kept) (start log) es :=
  along_of_invariant (fun _ _ hs ht => hs.next ht) (fun _ _ hs ht => (hs.next ht).kept)
    (fits_start log) h

/-- A line is written and sent before the log is read, another one afterwards. -/
def inTurn : List LogPageEvent :=
  [.append (toUtf8 "one"), .logChanged, .message, .loadLogs, .read 0, .append (toUtf8 "two"),
    .logChanged, .answered 0, .message]

theorem reload_in_order_inTurn : machine.Along Timely (start []) inTurn ∧
    machine.Along (fun s e => (machine.next s e).Kept) (start []) inTurn ∧
    (machine.run (start []) inTurn).logLines =
      [{ level := .info, text := "one" }, { level := .info, text := "two" }] := by
  have htimely : machine.Along Timely (start []) inTurn := by
    refine ⟨trivial, trivial, trivial, trivial, trivial, trivial, trivial, ?_, trivial, trivial⟩
    intro a ha
    have hread : (machine.run (start []) (inTurn.take 7)).answerOf 0 =
        some { text := "one\n", log := toUtf8 "one\n", sent := 4 } := by decide +kernel
    obtain rfl := Option.some.inj (hread.symm.trans ha)
    exact ⟨by decide +kernel, by decide +kernel⟩
  exact ⟨htimely, reload_in_order [] inTurn htimely, by decide +kernel⟩

/-- The log is read before a line of it is sent. -/
def twoWays : List LogPageEvent :=
  [.append (toUtf8 "one"), .loadLogs, .read 0, .answered 0, .logChanged, .message]

/-- The line comes both ways. -/
theorem reload_repeats :
    ¬machine.Along (fun s e => (machine.next s e).Kept) (start []) twoWays ∧
    (machine.run (start []) twoWays).messages = [] ∧
    (machine.run (start []) twoWays).logLines =
      [{ level := .info, text := "one" }, { level := .info, text := "one" }] := by
  refine ⟨?_, by decide +kernel, by decide +kernel⟩
  intro h
  obtain ⟨-, -, -, -, -, hlast, -⟩ := h
  have hkept := hlast { text := "one\n", log := toUtf8 "one\n", sent := 0 } (by decide +kernel)
    (by decide +kernel)
  revert hkept
  decide +kernel

/-- A line can get lost, too: it arrives before the answer it is not in. -/
example : (machine.run (start []) [.loadLogs, .read 0, .append (toUtf8 "one"), .logChanged,
    .message, .answered 0]).logLines = [] := by decide +kernel

end LogPage

end TiBackup
