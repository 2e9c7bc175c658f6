import TiBackup.Model.RunViewer

/-!
# TiBackup.Logs.Viewer

**What the run-log viewer shows.** Four functions wait for answers and store them in the
same fields, whatever was opened meanwhile. In every state whose last open action was
answered, the text is one slice of the log that is open, and of a run log the offset is
where it ends (`viewer_shows_slice`), as long as (`Careful`)

* no answer for another log arrives while this one is shown, and the answer to a tick
  finds the offset it asked for;
* nothing is appended to a run log between the size and the read of one request, and
  what is read is whole characters;
* no tick asks for an offset past the end of its log.

The invariant `Fits` speaks of the requests in flight and of what is shown, so opening,
closing, timers and messages keep it by sending at most one more request.
-/

namespace TiBackup

open Lib Lib.Machine

/-- The functions send what they are for. -/
def LogRequest.OriginFits (r : LogRequest) : Prop :=
  match r.origin with
  | .openRun _ => r.target.isRun = true ∧ r.offset = none
  | .tickRunTail => r.target.isRun = true ∧ r.offset.isSome = true
  | .openRsyncRun => r.target.isRun = false ∧ r.offset = none
  | .loadFullLog => r.offset = none

/-- An answer is the part of the file its record says. -/
structure LogRequest.AnswerFits (r : LogRequest) (file : Bytes) (a : LogAnswer) : Prop where
  le : r.span.1 ≤ r.span.2
  inside : r.span.2 ≤ file.length
  text : toUtf8 a.text = slice file r.span.1 r.span.2
  offset : a.offset = if r.target.isRun then some r.span.2 else none
  asked : ∀ o, r.offset = some o → r.span.1 = o

/-- A request in flight, for a log that has this in it. -/
structure LogRequest.Fits (r : LogRequest) (file : Bytes) : Prop where
  origin : r.OriginFits
  read : ∀ p, r.answer = none → r.read = some p → p.Agrees r.target.isRun r.offset file
  answer : ∀ a, r.answer = some a → r.AnswerFits file a

/-- The log grows. -/
theorem LogRequest.Fits.grow {r : LogRequest} {file : Bytes} (h : r.Fits file) (more : Bytes) :
    r.Fits (file ++ more) where
  origin := h.origin
  read p hanswer hp := (h.read p hanswer hp).append more
  answer a ha := by
    obtain ⟨hle, hinside, htext, hoffset, hasked⟩ := h.answer a ha
    refine ⟨hle, ?_, ?_, hoffset, hasked⟩
    · rw [List.length_append]
      omega
    · rw [slice_append _ _ _ hinside, htext]

namespace ShownLog

/-- The text is a slice of the log that is open; the offset of a run log is its end. -/
def Shown (s : ShownLog) : Prop :=
  ∃ start stop, start ≤ stop ∧ stop ≤ (s.content s.current).length ∧
    toUtf8 s.runText = slice (s.content s.current) start stop ∧
    (s.runKind = .run → s.runOffset = stop)

/-- The invariant of the viewer. -/
structure Fits (s : ShownLog) : Prop where
  requests : ∀ r ∈ s.requests, r.Fits (s.content r.target)
  ids : ∀ r ∈ s.requests, r.id < s.nextRequest
  opened : ∀ id, s.lastOpen = some id → id < s.nextRequest ∧ s.runKind ≠ .none
  kind : s.settled = true → s.runKind ≠ .none
  lastOpen : ∀ r ∈ s.requests, s.lastOpen = some r.id →
    r.target = s.current ∧ r.origin ≠ .tickRunTail
  shown : s.settled = true → s.Shown

theorem fits_start (jobs : List (String × String)) (files : LogRef → Option Bytes) :
    Fits (RunViewer.start jobs files).toShownLog where
  requests _ hr := absurd hr List.not_mem_nil
  ids _ hr := absurd hr List.not_mem_nil
  opened _ hid := by cases hid
  kind hsettled := by cases hsettled
  lastOpen _ hr := absurd hr List.not_mem_nil
  shown hsettled := by cases hsettled

/-! ### Requests are sent and forgotten -/

theorem mem_send {s : ShownLog} {origin : Origin} {target : LogRef} {offset : Option Nat}
    {full : Bool} {r : LogRequest} (h : r ∈ (s.send origin target offset full).requests) :
    r ∈ s.requests ∨
      r = { id := s.nextRequest, origin, target, offset, full } := by
  rcases List.mem_append.mp h with h | h
  · exact .inl h
  · exact .inr (List.mem_singleton.mp h)

/-- A request that was just sent. -/
theorem fits_new {id : Nat} {origin : Origin} {target : LogRef} {offset : Option Nat} {full : Bool}
    (h : ({ id, origin, target, offset, full } : LogRequest).OriginFits) (file : Bytes) :
    ({ id, origin, target, offset, full } : LogRequest).Fits file :=
  ⟨h, fun _ _ hread => (by cases hread), fun _ hanswer => (by cases hanswer)⟩

/-- One more request that opens nothing. -/
theorem Fits.send {s : ShownLog} (h : Fits s) {origin : Origin} {target : LogRef}
    {offset : Option Nat} {full : Bool}
    (horigin : ({ id := s.nextRequest, origin, target, offset, full } : LogRequest).OriginFits) :
    Fits (s.send origin target offset full) where
  requests r hr := by
    rcases mem_send hr with hr | rfl
    · exact h.requests r hr
    · exact fits_new horigin _
  ids r hr := by
    rcases mem_send hr with hr | rfl
    · exact Nat.lt_succ_of_lt (h.ids r hr)
    · exact Nat.lt_succ_self _
  opened id hid := ⟨Nat.lt_succ_of_lt (h.opened id hid).1, (h.opened id hid).2⟩
  kind := h.kind
  lastOpen r hr hid := by
    rcases mem_send hr with hr | rfl
    · exact h.lastOpen r hr hid
    · exact absurd (h.opened _ hid).1 (Nat.lt_irrefl _)
  shown := h.shown

/-- A request that opens a log: `s'` is the viewer after the fields were set. -/
theorem Fits.open {s : ShownLog} (h : Fits s) (s' : ShownLog) {origin : Origin} {full : Bool}
    (hrequests : s'.requests = s.requests) (hnext : s'.nextRequest = s.nextRequest)
    (hfiles : s'.files = s.files) (hlast : s'.lastOpen = some s.nextRequest)
    (hsettled : s'.settled = false) (hkind : s'.runKind ≠ .none) (htick : origin ≠ .tickRunTail)
    (horigin : ({ id := s'.nextRequest, origin, target := s'.current, offset := none, full } :
      LogRequest).OriginFits) : Fits (s'.send origin s'.current none full) where
  requests r hr := by
    rcases mem_send hr with hr | rfl
    · have hcontent : s'.content r.target = s.content r.target := by rw [content, content, hfiles]
      have hfits := h.requests r (by rwa [← hrequests])
      rw [← hcontent] at hfits
      exact hfits
    · exact fits_new horigin _
  ids r hr := by
    rcases mem_send hr with hr | rfl
    · exact Nat.lt_succ_of_lt (hnext ▸ h.ids r (by rwa [← hrequests]))
    · exact Nat.lt_succ_self _
  opened id hid := by
    have hid' : some s.nextRequest = some id := hlast.symm.trans hid
    refine ⟨?_, hkind⟩
    show id < s'.nextRequest + 1
    rw [← Option.some.inj hid', hnext]
    exact Nat.lt_succ_self _
  kind hs := absurd (hsettled.symm.trans hs) Bool.false_ne_true
  lastOpen r hr hid := by
    rcases mem_send hr with hr | rfl
    · have hid' : some s.nextRequest = some r.id := hlast.symm.trans hid
      have hlt := h.ids r (by rwa [← hrequests])
      rw [← Option.some.inj hid'] at hlt
      exact absurd hlt (Nat.lt_irrefl _)
    · exact ⟨rfl, htick⟩
  shown hs := absurd (hsettled.symm.trans hs) Bool.false_ne_true

theorem Fits.openRun {s : ShownLog} (h : Fits s) (file : String) (live : Bool) :
    Fits ((s.beginRun file).send (.openRun live) (.run file) none false) := by
  refine h.open (s.beginRun file) rfl rfl rfl rfl rfl ?_ ?_ ⟨rfl, rfl⟩
  · exact fun h => by cases h
  · exact fun h => by cases h

theorem Fits.openRsyncRun {s : ShownLog} (h : Fits s) (job file : String) :
    Fits ((s.beginRsync job file).send .openRsyncRun (.rsync job file) none false) := by
  refine h.open (s.beginRsync job file) rfl rfl rfl rfl rfl ?_ ?_ ⟨rfl, rfl⟩
  · exact fun h => by cases h
  · exact fun h => by cases h

theorem Fits.forget {s : ShownLog} (h : Fits s) (id : Nat) : Fits (s.forget id) where
  requests r hr := h.requests r (List.mem_of_mem_filter hr)
  ids r hr := h.ids r (List.mem_of_mem_filter hr)
  opened := h.opened
  kind := h.kind
  lastOpen r hr := h.lastOpen r (List.mem_of_mem_filter hr)
  shown := h.shown

/-! ### Logs grow -/

theorem content_append (s : ShownLog) (target : LogRef) (chunk : Bytes) (t : LogRef) :
    ∃ more, (s.append target chunk).content t = s.content t ++ more := by
  by_cases ht : t = target
  · subst ht
    exact ⟨chunk, by simp [content, append]⟩
  · exact ⟨[], by simp [content, append, ht]⟩

theorem Fits.append {s : ShownLog} (h : Fits s) (target : LogRef) (chunk : Bytes) :
    Fits (s.append target chunk) where
  requests r hr := by
    obtain ⟨more, hmore⟩ := content_append s target chunk r.target
    rw [hmore]
    exact (h.requests r hr).grow more
  ids := h.ids
  opened := h.opened
  kind := h.kind
  lastOpen := h.lastOpen
  shown hsettled := by
    obtain ⟨more, hmore⟩ := content_append s target chunk s.current
    obtain ⟨start, stop, hle, hinside, htext, hoffset⟩ := h.shown hsettled
    refine ⟨start, stop, hle, ?_, ?_, hoffset⟩
    · show stop ≤ ((s.append target chunk).content s.current).length
      rw [hmore, List.length_append]
      omega
    · show toUtf8 s.runText = slice ((s.append target chunk).content s.current) start stop
      rw [hmore, slice_append _ _ _ hinside, htext]

/-! ### Handlers go on -/

/-- One operation for a request: nothing, the file is opened, the answer is read, or
another one. -/
theorem handled_cases (file : Option Bytes) (r : LogRequest) :
    handled file r = r ∨
      (∃ f, file = some f ∧ r.answer = none ∧ r.read = none ∧
        handled file r = { r with read := some (.start
          { run := r.target.isRun, offset := r.offset.map Int.ofNat, full := r.full }) }) ∨
      ∃ f p, file = some f ∧ r.answer = none ∧ r.read = some p ∧
        ((∃ a, p.step f = .answered a ∧
            handled file r = { r with answer := some a, span := (p.readPos, f.length) }) ∨
          (∀ a, p.step f ≠ .answered a) ∧ handled file r = { r with read := some (p.step f) }) := by
  cases file with
  | none => exact .inl rfl
  | some f =>
    cases ha : r.answer with
    | some a => exact .inl (by simp only [handled, ha])
    | none =>
      cases hp : r.read with
      | none => exact .inr (.inl ⟨f, rfl, rfl, rfl, by simp only [handled, ha, hp]⟩)
      | some p =>
        refine .inr (.inr ⟨f, p, rfl, rfl, rfl, ?_⟩)
        cases hstep : p.step f with
        | answered a => exact .inl ⟨a, rfl, by simp only [handled, ha, hp, hstep]⟩
        | _ => exact .inr ⟨nofun, by simp only [handled, ha, hp, hstep]⟩

/-- The next operation for a request reads as it should: an offset is inside the log when
the size is taken, a run log is as long as it was when it is read, and what is read is
plain text. -/
def CarefulRead (file : Bytes) (r : LogRequest) : Prop :=
  r.answer = none →
    match r.read with
    | some (.opened _ _) => ∀ o, r.offset = some o → o ≤ file.length
    | some (.reading size pos _) =>
      (∀ n, size = some n → file.length = n) ∧ PlainText (file.drop pos)
    | _ => True

/-- What is read with care is the part of the log that the record says. -/
theorem answerFits_of_read {file : Bytes} {r : LogRequest} {size : Option Nat} {pos : Nat}
    {truncated : Bool}
    (hagrees : LogRead.Agrees r.target.isRun r.offset file (.reading size pos truncated))
    (hquiet : ∀ n, size = some n → file.length = n) (hplain : PlainText (file.drop pos)) :
    { r with
      answer := some { text := readText (file.drop pos), truncated, offset := size }
      span := (pos, file.length) }.AnswerFits file
        { text := readText (file.drop pos), truncated, offset := size } := by
  obtain ⟨⟨hsome, -⟩, hpos, hasked⟩ := hagrees
  refine ⟨hpos, Nat.le_refl _, LogRead.toUtf8_readText_drop hplain, ?_, hasked⟩
  show size = if r.target.isRun then some file.length else none
  cases size with
  | none =>
    rw [← hsome]
    rfl
  | some n =>
    rw [← hsome, hquiet n rfl]
    rfl

theorem handled_fits {file : Option Bytes} {r : LogRequest} (h : r.Fits (file.getD []))
    (hcareful : CarefulRead (file.getD []) r) : (handled file r).Fits (file.getD []) := by
  rcases handled_cases file r with hsame | ⟨f, rfl, hanswer, hread, hstart⟩ |
    ⟨f, p, rfl, hanswer, hread, ⟨a, hstep, hdone⟩ | ⟨hno, hdone⟩⟩
  · rwa [hsame]
  · rw [hstart]
    refine ⟨h.origin, ?_, ?_⟩
    · intro p _ hp
      obtain rfl := Option.some.inj hp
      refine LogRead.agrees_start ?_
      intro hrun
      have horigin := h.origin
      rw [LogRequest.OriginFits] at horigin
      split at horigin
      · exact horigin.2
      · exact absurd (hrun.symm.trans horigin.1) Bool.false_ne_true
      · exact horigin.2
      · exact horigin
    · intro a ha
      rw [hanswer] at ha
      cases ha
  · have hagrees := h.read p hanswer hread
    obtain ⟨size, pos, truncated, rfl⟩ := hagrees.reading_of_answered hstep
    have hcare := hcareful hanswer
    rw [hread] at hcare
    obtain rfl := LogRead.answered.inj hstep
    rw [hdone]
    refine ⟨h.origin, fun _ hnone => (by cases hnone), ?_⟩
    intro a ha
    obtain rfl := Option.some.inj ha
    exact answerFits_of_read hagrees hcare.1 hcare.2
  · have hagrees := h.read p hanswer hread
    rw [hdone]
    refine ⟨h.origin, ?_, ?_⟩
    · intro p' _ hp'
      obtain rfl := Option.some.inj hp'
      refine hagrees.step ?_ ?_
      · intro offset full hopened
        have hcare := hcareful hanswer
        rw [hread, hopened] at hcare
        exact hcare
      · intro size pos truncated hreading
        rw [hreading] at hno
        exact hno _ rfl
    · intro a ha
      rw [hanswer] at ha
      cases ha

/-- An operation changes what was read and answered, and nothing else. -/
theorem handled_keeps (file : Option Bytes) (r : LogRequest) :
    (handled file r).id = r.id ∧ (handled file r).origin = r.origin ∧
      (handled file r).target = r.target ∧ (handled file r).offset = r.offset := by
  rcases handled_cases file r with hsame | ⟨f, -, -, -, hstart⟩ |
    ⟨f, p, -, -, -, ⟨a, -, hdone⟩ | ⟨-, hdone⟩⟩
  · rw [hsame]
    exact ⟨rfl, rfl, rfl, rfl⟩
  · rw [hstart]
    exact ⟨rfl, rfl, rfl, rfl⟩
  · rw [hdone]
    exact ⟨rfl, rfl, rfl, rfl⟩
  · rw [hdone]
    exact ⟨rfl, rfl, rfl, rfl⟩

/-- A request after an operation is one from before, handled or not. -/
theorem mem_handle {s : ShownLog} {id : Nat} {r : LogRequest} (h : r ∈ (s.handle id).requests) :
    ∃ r₀ ∈ s.requests, (r = r₀ ∧ r₀.id ≠ id) ∨ (r = handled (s.files r₀.target) r₀ ∧ r₀.id = id) := by
  obtain ⟨r₀, hr₀, hr⟩ := List.mem_map.mp h
  refine ⟨r₀, hr₀, ?_⟩
  by_cases hid : r₀.id = id
  · rw [if_pos hid] at hr
    exact .inr ⟨hr.symm, hid⟩
  · rw [if_neg hid] at hr
    exact .inl ⟨hr.symm, hid⟩

theorem Fits.handle {s : ShownLog} (h : Fits s) {id : Nat}
    (hcareful : ∀ r ∈ s.requests, r.id = id → CarefulRead (s.content r.target) r) :
    Fits (s.handle id) where
  requests r hr := by
    obtain ⟨r₀, hr₀, ⟨rfl, -⟩ | ⟨rfl, hid⟩⟩ := mem_handle hr
    · exact h.requests r hr₀
    · rw [(handled_keeps _ r₀).2.2.1]
      exact handled_fits (h.requests r₀ hr₀) (hcareful r₀ hr₀ hid)
  ids r hr := by
    obtain ⟨r₀, hr₀, ⟨rfl, -⟩ | ⟨rfl, -⟩⟩ := mem_handle hr
    · exact h.ids r hr₀
    · rw [(handled_keeps _ r₀).1]
      exact h.ids r₀ hr₀
  opened := h.opened
  kind := h.kind
  lastOpen r hr hlast := by
    obtain ⟨r₀, hr₀, ⟨rfl, -⟩ | ⟨rfl, -⟩⟩ := mem_handle hr
    · exact h.lastOpen r hr₀ hlast
    · obtain ⟨hid, horigin, htarget, -⟩ := handled_keeps (s.files r₀.target) r₀
      rw [hid] at hlast
      rw [htarget, horigin]
      exact h.lastOpen r₀ hr₀ hlast
  shown := h.shown

/-! ### Answers arrive -/

/-- An answer changes what is shown and its request, and nothing else. -/
theorem answered_keeps (s : ShownLog) (r : LogRequest) (a : LogAnswer) :
    (s.answered r a).requests = (s.forget r.id).requests ∧
      (s.answered r a).nextRequest = s.nextRequest ∧ (s.answered r a).files = s.files ∧
      (s.answered r a).lastOpen = s.lastOpen ∧ (s.answered r a).current = s.current ∧
      (s.answered r a).runKind = s.runKind := by
  rw [ShownLog.answered, store]
  split
  · exact ⟨rfl, rfl, rfl, rfl, rfl, rfl⟩
  · exact ⟨rfl, rfl, rfl, rfl, rfl, rfl⟩
  · exact ⟨rfl, rfl, rfl, rfl, rfl, rfl⟩
  · exact ⟨rfl, rfl, rfl, rfl, rfl, rfl⟩

/-- The offset of an answer about the run log that is open. -/
theorem offset_of_run {s : ShownLog} {r : LogRequest} {a : LogAnswer}
    (ha : r.AnswerFits (s.content s.current) a) (htarget : r.target = s.current)
    (hkind : s.runKind = .run) : a.offset = some r.span.2 := by
  rw [ha.offset, htarget, current, hkind]
  rfl

/-- An answer about the log that is open leaves a slice of it; the answer to a tick, if a
slice was shown that ends where it was asked for. -/
theorem shown_answered {s : ShownLog} {r : LogRequest} {a : LogAnswer}
    (ha : r.AnswerFits (s.content s.current) a) (htarget : r.target = s.current)
    (horigin : r.OriginFits) (hkind : s.runKind ≠ .none)
    (htick : r.origin = .tickRunTail → s.Shown ∧ r.offset = some s.runOffset) :
    (s.answered r a).Shown := by
  obtain ⟨-, -, hfiles, -, hcurrent, hsame⟩ := answered_keeps s r a
  rw [Shown, hcurrent, content, hfiles, hsame]
  rw [LogRequest.OriginFits] at horigin
  cases horiginal : r.origin with
  | openRun live =>
    refine ⟨r.span.1, r.span.2, ha.le, ha.inside, ?_, ?_⟩
    · rw [ShownLog.answered, store, horiginal]
      exact ha.text
    · intro hrun
      rw [ShownLog.answered, store, horiginal, offset_of_run ha htarget hrun]
      rfl
  | tickRunTail =>
    rw [horiginal] at horigin
    obtain ⟨⟨start, stop, hle, hinside, htext, hoffset⟩, hasked⟩ := htick horiginal
    have hrun : s.runKind = .run := by
      have hisRun := horigin.1
      rw [htarget, current] at hisRun
      cases hk : s.runKind with
      | none => exact absurd hk hkind
      | run => rfl
      | rsync =>
        rw [hk] at hisRun
        cases hisRun
    -- The two slices meet where the first one ended.
    have hstop : r.span.1 = stop := (ha.asked _ hasked).trans (hoffset hrun)
    refine ⟨start, r.span.2, ?_, ha.inside, ?_, ?_⟩
    · exact hle.trans (hstop ▸ ha.le)
    · rw [ShownLog.answered, store, horiginal]
      show toUtf8 (s.runText ++ a.text) = _
      rw [toUtf8_append, htext, ha.text, hstop]
      exact slice_append_slice _ hle (hstop ▸ ha.le)
    · intro _
      rw [ShownLog.answered, store, horiginal, offset_of_run ha htarget hrun]
      rfl
  | openRsyncRun =>
    rw [horiginal] at horigin
    refine ⟨r.span.1, r.span.2, ha.le, ha.inside, ?_, ?_⟩
    · rw [ShownLog.answered, store, horiginal]
      exact ha.text
    · intro hrun
      have hisRun := horigin.1
      rw [htarget, current, hrun] at hisRun
      cases hisRun
  | loadFullLog =>
    refine ⟨r.span.1, r.span.2, ha.le, ha.inside, ?_, ?_⟩
    · rw [ShownLog.answered, store, horiginal]
      exact ha.text
    · intro hrun
      rw [ShownLog.answered, store, horiginal, offset_of_run ha htarget hrun]
      exact if_pos hrun

theorem Fits.answered {s : ShownLog} (h : Fits s) {r : LogRequest} {a : LogAnswer}
    (hr : r ∈ s.requests) (ha : r.answer = some a)
    (hcareful : s.settled = true →
      r.target = s.current ∧ (r.origin = .tickRunTail → r.offset = some s.runOffset)) :
    Fits (s.answered r a) := by
  obtain ⟨hrequests, hnext, hfiles, hlast, hcurrent, hkind⟩ := answered_keeps s r a
  have hforget := h.forget r.id
  -- A log is shown now, or it is from this answer on.
  have hsettled : (s.answered r a).settled = true →
      s.settled = true ∨ s.lastOpen = some r.id := by
    intro hs
    have hor : (s.settled || decide (s.lastOpen = some r.id)) = true := hs
    rwa [Bool.or_eq_true, decide_eq_true_eq] at hor
  have hnone : (s.answered r a).settled = true → s.runKind ≠ .none := by
    intro hs
    rcases hsettled hs with hs | hid
    · exact h.kind hs
    · exact (h.opened _ hid).2
  refine ⟨?_, ?_, ?_, ?_, ?_, ?_⟩
  · intro r' hr'
    rw [hrequests] at hr'
    rw [content, hfiles]
    exact hforget.requests r' hr'
  · intro r' hr'
    rw [hrequests] at hr'
    rw [hnext]
    exact hforget.ids r' hr'
  · intro id hid
    rw [hlast] at hid
    rw [hnext, hkind]
    exact h.opened id hid
  · rw [hkind]
    exact hnone
  · intro r' hr' hid
    rw [hrequests] at hr'
    rw [hlast] at hid
    rw [hcurrent]
    exact hforget.lastOpen r' hr' hid
  · intro hs
    have htarget : r.target = s.current := by
      rcases hsettled hs with hs | hid
      · exact (hcareful hs).1
      · exact (h.lastOpen r hr hid).1
    have hfits := h.requests r hr
    have hanswer := hfits.answer a ha
    rw [htarget] at hanswer
    refine shown_answered hanswer htarget hfits.origin (hnone hs) ?_
    intro htick
    rcases hsettled hs with hs | hid
    · exact ⟨h.shown hs, (hcareful hs).2 htick⟩
    · exact absurd htick (h.lastOpen r hr hid).2

end ShownLog

namespace RunViewer

/-- The event is none of those that mix logs: handlers read with care, and an answer that
arrives while a log is shown is about this log, from the offset it has. -/
def Careful (s : RunViewer) : ViewerEvent → Prop
  | .handle id =>
    ∀ r ∈ s.requests, r.id = id → ShownLog.CarefulRead (s.content r.target) r
  | .answer id =>
    ∀ r a, s.find id = some r → r.answer = some a → s.settled = true →
      r.target = s.current ∧ (r.origin = .tickRunTail → r.offset = some s.runOffset)
  | _ => True

/-! ### The rest of the page -/

@[simp] theorem log_stopRunTail (s : RunViewer) : s.stopRunTail.toShownLog = s.toShownLog := by
  rw [stopRunTail]
  split
  · rfl
  · rfl

@[simp] theorem log_done (s : RunViewer) (origin : Origin) :
    (s.done origin).toShownLog = s.toShownLog := by
  cases origin with
  | openRun live =>
    cases live with
    | true => rfl
    | false => rfl
  | tickRunTail =>
    rw [done, tickRunTailDone]
    split
    · rfl
    · exact log_stopRunTail _
  | openRsyncRun => rfl
  | loadFullLog => rfl

/-- A tick sends a request or does nothing. -/
theorem log_tickRunTail (s : RunViewer) : s.tickRunTail.toShownLog = s.toShownLog ∨
    s.tickRunTail.toShownLog =
      s.send .tickRunTail (.run s.runFile) (some s.runOffset) false := by
  rw [tickRunTail]
  split
  · exact .inl rfl
  · exact .inr rfl

theorem fits_tickRunTail {s : RunViewer} (h : s.Fits) : s.tickRunTail.Fits := by
  rcases log_tickRunTail s with hsame | hsent
  · rwa [hsame]
  · rw [hsent]
    exact h.send ⟨rfl, rfl⟩

theorem mem_of_find {s : ShownLog} {id : Nat} {r : LogRequest} (h : s.find id = some r) :
    r ∈ s.requests ∧ r.id = id :=
  ⟨List.mem_of_find?_eq_some h, by simpa using List.find?_some h⟩

/-- One event keeps the invariant. -/
theorem fits_step {s : RunViewer} (h : s.Fits) {e : ViewerEvent} (hcareful : Careful s e) :
    (step s e).Fits := by
  cases e with
  | openRun file name live =>
    show ShownLog.Fits ((s.stopRunTail.toShownLog.beginRun file).send _ _ _ _)
    rw [log_stopRunTail]
    exact h.openRun file live
  | openRsyncRun job file =>
    show ShownLog.Fits ((s.stopRunTail.toShownLog.beginRsync job file).send _ _ _ _)
    rw [log_stopRunTail]
    exact h.openRsyncRun job file
  | loadFullLog => exact h.send rfl
  | closeRun =>
    show s.stopRunTail.toShownLog.Fits
    rwa [log_stopRunTail]
  | interval id =>
    rw [step]
    split
    · exact fits_tickRunTail h
    · exact h
  | loadJobs jobs => exact h
  | statusChanged name status => exact h
  | message =>
    rw [step]
    split
    · exact h
    · rw [onLiveMessage]
      split
      · exact fits_tickRunTail h
      · exact h
  | append target chunk => exact h.append target chunk
  | handle id => exact h.handle hcareful
  | answer id =>
    rw [step]
    split
    · next r hr =>
      split
      · next a ha =>
        rw [log_done]
        exact h.answered (mem_of_find hr).1 ha (hcareful r a hr ha)
      · exact h
    · exact h
  | fail id =>
    rw [step]
    split
    · rw [log_done]
      exact h.forget id
    · exact h

/-- **The viewer never mixes logs.** After every run of careful events from the start of
the page, if the last open action was answered, the text is a slice of the log that is
open, and of a run log the offset is where it ends. -/
theorem viewer_shows_slice (jobs : List (String × String)) (files : LogRef → Option Bytes)
    (es : List ViewerEvent) (hcareful : machine.Along Careful (start jobs files) es)
    (hsettled : (machine.run (start jobs files) es).settled = true) :
    (machine.run (start jobs files) es).Shown := by
  have hfits : (machine.run (start jobs files) es).Fits :=
    invariant_run (M := machine) (I := fun s : RunViewer => s.Fits) (P := Careful)
      (fun _ _ h hcareful => fits_step h hcareful) (ShownLog.fits_start jobs files) hcareful
  exact hfits.shown hsettled

/-! ### A run of each kind -/

/-- A test for `Careful` that can be run, for ASCII logs. -/
def checked (s : RunViewer) : ViewerEvent → Bool
  | .handle id => s.requests.all fun r =>
    decide (r.id ≠ id) || r.answer.isSome ||
      match r.read with
      | some (.opened _ _) => r.offset.all fun o => o ≤ (s.content r.target).length
      | some (.reading size pos _) =>
        (size.all fun n => (s.content r.target).length = n) &&
          ((s.content r.target).drop pos).all fun b => b < 128 && b ≠ 13
      | _ => true
  | .answer id =>
    match s.find id with
    | some r => r.answer.isNone || !s.settled ||
        (r.target = s.current && (r.origin ≠ .tickRunTail || r.offset = some s.runOffset))
    | none => true
  | _ => true

theorem careful_of_checked {s : RunViewer} {e : ViewerEvent} (h : checked s e = true) :
    Careful s e := by
  cases e with
  | handle id =>
    intro r hr hid hanswer
    have hcheck := List.all_eq_true.mp h r hr
    rw [hanswer, hid] at hcheck
    simp only [ne_eq, not_true_eq_false, decide_false, Option.isSome_none, Bool.or_self,
      Bool.false_or] at hcheck
    split
    · next hopened =>
      rw [hopened] at hcheck
      intro o ho
      rw [ho] at hcheck
      exact of_decide_eq_true hcheck
    · next hreading =>
      rw [hreading] at hcheck
      rw [Bool.and_eq_true, List.all_eq_true] at hcheck
      refine ⟨?_, plainText_of_ascii ?_⟩
      · intro n hn
        have hsize := hcheck.1
        rw [hn] at hsize
        exact of_decide_eq_true hsize
      · intro b hb
        have hbyte := hcheck.2 b hb
        rwa [Bool.and_eq_true, decide_eq_true_eq, decide_eq_true_eq] at hbyte
    · trivial
  | answer id =>
    intro r a hr ha hsettled
    rw [checked, hr] at h
    simp only [ha, hsettled, Option.isNone_some, Bool.not_true, Bool.false_or, Bool.and_eq_true,
      Bool.or_eq_true, decide_eq_true_eq] at h
    exact ⟨h.1, fun htick => h.2.resolve_left fun hne => hne htick⟩
  | _ => trivial

/-- Two run logs. -/
def twoLogs (t : LogRef) : Option Bytes :=
  if t = .run "photos" then some (toUtf8 "one\n")
  else if t = .run "mail" then some (toUtf8 "m\n")
  else none

/-- A handler from the open to the answer. -/
def handleAll (id : Nat) : List ViewerEvent := List.replicate 5 (.handle id)

/-- A live log is opened, grows, and is polled. -/
def tailPhotos : List ViewerEvent :=
  [.openRun "photos" "photos" true] ++ handleAll 0 ++
    [.answer 0, .append (.run "photos") (toUtf8 "two\n"), .interval 1] ++ handleAll 1

/-- The answer to the poll arrives after another log was opened. -/
def switchWhilePolling : List ViewerEvent :=
  tailPhotos ++ [.openRun "mail" "mail" false] ++ handleAll 2 ++ [.answer 2, .answer 1]

theorem viewer_shows_slice_tailPhotos :
    machine.Along Careful (start [("photos", "running")] twoLogs) (tailPhotos ++ [.answer 1]) ∧
      (machine.run (start [("photos", "running")] twoLogs)
        (tailPhotos ++ [.answer 1])).settled = true ∧
      (machine.run (start [("photos", "running")] twoLogs) (tailPhotos ++ [.answer 1])).Shown ∧
      (machine.run (start [("photos", "running")] twoLogs) (tailPhotos ++ [.answer 1])).runText =
        "one\ntwo\n" := by
  have hchecked : machine.Along (fun s e => checked s e = true)
      (start [("photos", "running")] twoLogs) (tailPhotos ++ [.answer 1]) := by decide +kernel
  have hcareful : machine.Along Careful (start [("photos", "running")] twoLogs)
      (tailPhotos ++ [.answer 1]) :=
    along_of_invariant (I := fun _ => True) (fun _ _ _ _ => trivial)
      (fun _ _ _ h => careful_of_checked h) trivial hchecked
  have hsettled : (machine.run (start [("photos", "running")] twoLogs)
      (tailPhotos ++ [.answer 1])).settled = true := by decide +kernel
  exact ⟨hcareful, hsettled, viewer_shows_slice _ _ _ hcareful hsettled, by decide +kernel⟩

/-- The viewer is on the second log and shows more than is in it: the end of the first
one. -/
theorem switchWhilePolling_mixes :
    (machine.run (start [("photos", "running")] twoLogs) switchWhilePolling).settled = true ∧
      (machine.run (start [("photos", "running")] twoLogs) switchWhilePolling).current =
        .run "mail" ∧
      (machine.run (start [("photos", "running")] twoLogs) switchWhilePolling).runText =
        "m\ntwo\n" ∧
      ¬(machine.run (start [("photos", "running")] twoLogs) switchWhilePolling).Shown := by
  refine ⟨by decide +kernel, by decide +kernel, by decide +kernel, ?_⟩
  rintro ⟨start, stop, -, -, htext, -⟩
  have hlength := congrArg List.length htext
  have hle := length_slice_le ((machine.run (RunViewer.start [("photos", "running")] twoLogs)
    switchWhilePolling).content (machine.run (RunViewer.start [("photos", "running")] twoLogs)
      switchWhilePolling).current) start stop
  have hlonger : ((machine.run (RunViewer.start [("photos", "running")] twoLogs)
      switchWhilePolling).content (machine.run (RunViewer.start [("photos", "running")] twoLogs)
        switchWhilePolling).current).length <
      (toUtf8 (machine.run (RunViewer.start [("photos", "running")] twoLogs)
        switchWhilePolling).runText).length := by decide +kernel
  omega

end RunViewer

end TiBackup
