import TiBackup.Model.WsHub

/-!
# TiBackup.Live.LogTail

**What the live log delivers.** Between two callbacks the tail remembers a position in
the file and nothing else. Two things can go wrong with that, and these are the only
ones:

* A callback comes while a line is half written. The half is sent as a line of its own.
  As long as no callback finds the rest of a line whose beginning an earlier one has
  sent (`Joins`), the lines sent are the lines appended (`whole_lines_once`).
* The log is truncated and grows past the remembered position before the next callback,
  which takes the position for a good one. As long as a truncated log is found shorter
  than the position (`Noticed`), each callback sends exactly the lines that were appended
  since the one before and are still there (`truncation_survived`).

The runs are those of the live channel with a record kept beside it (`Tail`) of what was
appended, what of it has been read, and what was sent.
-/

namespace TiBackup

open Lib Lib.Machine

/-! ### Lines of a byte string -/

/-- Empty, or ends with a line break. -/
def LineEnd (bs : Bytes) : Prop := bs = [] ∨ ∃ xs, bs = xs ++ [10]

/-- Empty, or begins with a line break. -/
def LineStart (bs : Bytes) : Prop := bs = [] ∨ ∃ ys, bs = 10 :: ys

/-- White space only. -/
def Blank (line : Bytes) : Prop := ∀ b ∈ line, isSpaceByte b = true

/-- What follows the last line break. -/
def openLine (bs : Bytes) : Bytes := bs.rtakeWhile (· ≠ 10)

/-- What comes before the first line break. -/
def firstLine (bs : Bytes) : Bytes := bs.takeWhile (· ≠ 10)

theorem trimmedBytes_eq_nil_iff {line : Bytes} : trimmedBytes line = [] ↔ Blank line := by
  rw [trimmedBytes, List.rdropWhile_eq_nil_iff]
  constructor
  · intro h b hb
    -- What `dropWhile` leaves would begin with a byte that is no space.
    rcases hd : line.dropWhile isSpaceByte with - | ⟨c, cs⟩
    · exact List.dropWhile_eq_nil_iff.mp hd b hb
    · have hc := List.head_dropWhile_not isSpaceByte (l := line) (by simp [hd])
      simp only [hd, List.head_cons] at hc
      rw [h c (by simp [hd])] at hc
      cases hc
  · intro h b hb
    exact h b ((List.dropWhile_sublist _).subset hb)

theorem blank_append {xs ys : Bytes} : Blank (xs ++ ys) ↔ Blank xs ∧ Blank ys := by
  simp only [Blank, List.mem_append]
  exact ⟨fun h => ⟨fun b hb => h b (.inl hb), fun b hb => h b (.inr hb)⟩,
    fun h b hb => hb.elim (h.1 b) (h.2 b)⟩

theorem ne_nil_of_not_blank {line : Bytes} (h : ¬Blank line) : line ≠ [] := fun heq =>
  h (heq ▸ fun _ hb => absurd hb List.not_mem_nil)

namespace WsHub

@[simp] theorem logLines_nil : logLines [] = [] := by decide

theorem logLines_append_cons (xs ys : Bytes) :
    logLines (xs ++ 10 :: ys) = logLines xs ++ logLines ys := by
  rw [logLines, List.splitOn_append_cons_self, List.filter_append]
  rfl

/-- Lines after a line end. -/
theorem logLines_append_of_lineEnd {xs : Bytes} (h : LineEnd xs) (ys : Bytes) :
    logLines (xs ++ ys) = logLines xs ++ logLines ys := by
  rcases h with rfl | ⟨xs, rfl⟩
  · simp
  · rw [List.append_assoc, List.singleton_append, logLines_append_cons, logLines_append_cons,
      logLines_nil, List.append_nil]

/-- Lines before a line break. -/
theorem logLines_append_of_lineStart (xs : Bytes) {ys : Bytes} (h : LineStart ys) :
    logLines (xs ++ ys) = logLines xs ++ logLines ys := by
  rcases h with rfl | ⟨ys, rfl⟩
  · simp
  · rw [logLines_append_cons, ← List.nil_append (10 :: ys), logLines_append_cons, logLines_nil,
      List.nil_append]

/-- A piece without a line break is no line when it is blank. -/
theorem logLines_of_blank {line : Bytes} (h : 10 ∉ line) (hblank : Blank line) :
    logLines line = [] := by
  rw [logLines, List.splitOn_eq_singleton h]
  simp [trimmedBytes_eq_nil_iff.mpr hblank]

/-- Otherwise it is one. -/
theorem logLines_of_not_blank {line : Bytes} (h : 10 ∉ line) (hblank : ¬Blank line) :
    logLines line = [line] := by
  rw [logLines, List.splitOn_eq_singleton h]
  simp [mt trimmedBytes_eq_nil_iff.mp hblank]

end WsHub

theorem lineEnd_rdropWhile (bs : Bytes) : LineEnd (bs.rdropWhile (· ≠ 10)) := by
  by_cases h : bs.rdropWhile (· ≠ 10) = []
  · exact .inl h
  · have hlast := List.rdropWhile_last_not (fun b : UInt8 => decide (b ≠ 10)) bs h
    refine .inr ⟨(bs.rdropWhile (· ≠ 10)).dropLast, ?_⟩
    have hten : (bs.rdropWhile (· ≠ 10)).getLast h = 10 := by simpa using hlast
    conv_lhs => rw [← List.dropLast_append_getLast h, hten]

theorem lineStart_dropWhile (bs : Bytes) : LineStart (bs.dropWhile (· ≠ 10)) := by
  induction bs with
  | nil => exact .inl rfl
  | cons b bs ih =>
    rw [List.dropWhile_cons]
    split
    · exact ih
    · next hten => exact .inr ⟨bs, by rw [show b = 10 by simpa using hten]⟩

theorem not_mem_openLine (bs : Bytes) : 10 ∉ openLine bs := fun h => by
  have := List.mem_rtakeWhile_imp h
  simp at this

theorem not_mem_firstLine (bs : Bytes) : 10 ∉ firstLine bs := fun h => by
  have := List.mem_takeWhile_imp h
  simp at this

/-- Nothing is lost or cut when these two pieces are split into lines one after the
other: the second does not go on with a line of the first, or this line is blank. -/
def Joins (xs ys : Bytes) : Prop :=
  openLine xs = [] ∨ firstLine ys = [] ∨ Blank (openLine xs ++ firstLine ys)

/-- Splitting in two steps gives the lines of the whole exactly when the pieces join. -/
theorem logLines_append_iff (xs ys : Bytes) :
    WsHub.logLines (xs ++ ys) = WsHub.logLines xs ++ WsHub.logLines ys ↔ Joins xs ys := by
  have hxs : xs = xs.rdropWhile (· ≠ 10) ++ openLine xs := (List.rdropWhile_append_rtakeWhile ..).symm
  have hys : ys = firstLine ys ++ ys.dropWhile (· ≠ 10) := List.takeWhile_append_dropWhile.symm
  have hjoint : 10 ∉ openLine xs ++ firstLine ys := by
    simp [not_mem_openLine, not_mem_firstLine]
  have hleft : WsHub.logLines xs =
      WsHub.logLines (xs.rdropWhile (· ≠ 10)) ++ WsHub.logLines (openLine xs) := by
    conv_lhs => rw [hxs]
    exact WsHub.logLines_append_of_lineEnd (lineEnd_rdropWhile xs) _
  have hright : WsHub.logLines ys =
      WsHub.logLines (firstLine ys) ++ WsHub.logLines (ys.dropWhile (· ≠ 10)) := by
    conv_lhs => rw [hys]
    exact WsHub.logLines_append_of_lineStart _ (lineStart_dropWhile ys)
  have hwhole : WsHub.logLines (xs ++ ys) = WsHub.logLines (xs.rdropWhile (· ≠ 10)) ++
      (WsHub.logLines (openLine xs ++ firstLine ys) ++
        WsHub.logLines (ys.dropWhile (· ≠ 10))) := by
    conv_lhs => rw [hxs, hys]
    rw [List.append_assoc, WsHub.logLines_append_of_lineEnd (lineEnd_rdropWhile xs),
      ← List.append_assoc, WsHub.logLines_append_of_lineStart _ (lineStart_dropWhile ys)]
  -- All but the piece around the cut is the same on both sides.
  rw [hwhole, hleft, hright, List.append_assoc, List.append_cancel_left_eq, ← List.append_assoc,
    List.append_cancel_right_eq, Joins, blank_append]
  have hu := not_mem_openLine xs
  have hv := not_mem_firstLine ys
  generalize openLine xs = u at hu hjoint ⊢
  generalize firstLine ys = v at hv hjoint ⊢
  -- Two pieces that are not blank give two lines apart and one line together.
  by_cases hublank : Blank u
  · rw [WsHub.logLines_of_blank hu hublank]
    by_cases hvblank : Blank v
    · rw [WsHub.logLines_of_blank hv hvblank,
        WsHub.logLines_of_blank hjoint (blank_append.mpr ⟨hublank, hvblank⟩)]
      simp [hublank, hvblank]
    · rw [WsHub.logLines_of_not_blank hv hvblank,
        WsHub.logLines_of_not_blank hjoint fun h => hvblank (blank_append.mp h).2]
      simp [hvblank, ne_nil_of_not_blank hvblank]
  · rw [WsHub.logLines_of_not_blank hu hublank,
      WsHub.logLines_of_not_blank hjoint fun h => hublank (blank_append.mp h).1]
    by_cases hvblank : Blank v
    · rw [WsHub.logLines_of_blank hv hvblank]
      simp [hublank, ne_nil_of_not_blank hublank]
    · rw [WsHub.logLines_of_not_blank hv hvblank]
      simp [hublank, ne_nil_of_not_blank hublank, ne_nil_of_not_blank hvblank]

/-! ### Runs with a record of the log -/

/-- The channel, and what became of the log since start-up. -/
structure Tail where
  live : LiveChannel
  /-- All that was appended. -/
  appended : Bytes := []
  /-- What callbacks have read of it. -/
  read : Bytes := []
  /-- What was appended since the last callback, and is still there. -/
  unread : Bytes := []
  /-- Was the log truncated since the last callback? -/
  truncated : Bool := false
  /-- The `line` values broadcast. -/
  lines : List String := []

namespace Tail

/-- The `line` values of some messages. -/
def lineValues (msgs : List Message) : List String :=
  msgs.filterMap fun
    | .logTail line => some line
    | _ => none

theorem lineValues_logTail (ls : List Bytes) :
    lineValues (ls.map fun line => .logTail (fromUtf8 line)) = ls.map fromUtf8 := by
  induction ls with
  | nil => rfl
  | cons line ls ih => rw [List.map_cons, List.map_cons, ← ih, lineValues, List.filterMap_cons]; rfl

/-- One event with its record; the output is what it broadcasts of the log. -/
def step (verifies : Bool) (version : String) (t : Tail) (e : LiveEvent) : Tail × List String :=
  let r := LiveChannel.step verifies version t.live e
  let sent := lineValues r.2.broadcast
  let t := { t with live := r.1, lines := t.lines ++ sent }
  match e with
  | .logAppended chunk =>
    ({ t with appended := t.appended ++ chunk, unread := t.unread ++ chunk }, sent)
  | .logTruncated => ({ t with unread := [], truncated := true }, sent)
  | .logChanged _ => ({ t with read := t.read ++ t.unread, unread := [], truncated := false }, sent)
  | _ => (t, sent)

def machine (verifies : Bool) (version : String) : Machine Tail LiveEvent (List String) where
  step := step verifies version

/-- The daemon starts. -/
def start (sessions : SessionStore) (log : Option Bytes) : Tail where
  live := .start sessions log

variable {verifies : Bool} {version : String}

/-- The record fits the channel: the log is what was read, up to the position of the
tail, and then what is unread; a log that was truncated is all unread. -/
structure Fits (t : Tail) : Prop where
  absent : t.live.log = none → t.unread = [] ∧ t.live.hub.logPos = 0
  kept : ∀ f, t.live.log = some f → t.truncated = false →
    ∃ seen, f = seen ++ t.unread ∧ t.live.hub.logPos = seen.length
  rest : ∀ f, t.live.log = some f → t.truncated = true → f = t.unread

theorem fits_start (sessions : SessionStore) (log : Option Bytes) : Fits (start sessions log) := by
  refine ⟨fun h => ⟨rfl, ?_⟩, fun f hf _ => ⟨f, by simp [start], ?_⟩, fun _ _ h => by cases h⟩
  · rw [show log = none from h]
    rfl
  · rw [show log = some f from hf]
    rfl

/-- A truncated log is found out, or the tail was at its beginning anyway. -/
def Noticed (t : Tail) (e : LiveEvent) : Prop :=
  ∀ now, e = .logChanged now → t.truncated = true →
    (t.live.log.getD []).length < t.live.hub.logPos ∨ t.live.hub.logPos = 0

/-- No callback finds the rest of a line whose beginning was sent, and the log is not
truncated. -/
def JoinsLines (t : Tail) (e : LiveEvent) : Prop :=
  e ≠ .logTruncated ∧ ∀ now, e = .logChanged now → Joins t.read t.unread

/-- What a callback does to a log it can read as it should. -/
theorem emitLogTail_unread {t : Tail} (h : Fits t) {now : Int}
    (hnoticed : Noticed t (.logChanged now)) :
    t.live.hub.emitLogTail t.live.log =
      ({ t.live.hub with logPos := (t.live.log.getD []).length },
        (WsHub.logLines t.unread).map fun line => .logTail (fromUtf8 line)) := by
  cases hlog : t.live.log with
  | none =>
    obtain ⟨hunread, hpos⟩ := h.absent hlog
    rw [hunread, WsHub.logLines_nil]
    show (t.live.hub, []) = ({ t.live.hub with logPos := 0 }, [])
    rw [← hpos]
  | some f =>
    have hnoticed := hnoticed now rfl
    rw [hlog] at hnoticed
    -- Either the tail goes on where it was, or it starts again at the beginning.
    cases htruncated : t.truncated with
    | false =>
      obtain ⟨seen, hf, hpos⟩ := h.kept f hlog htruncated
      rw [WsHub.emitLogTail_of_le (by rw [hpos, hf, List.length_append]; omega), hpos, hf,
        List.drop_left]
      rfl
    | true =>
      have hf := h.rest f hlog htruncated
      rcases hnoticed htruncated with hlt | hzero
      · rw [WsHub.emitLogTail_of_lt (f := f) hlt, ← hf]
        rfl
      · rw [WsHub.emitLogTail_of_le (by omega), hzero, List.drop_zero, ← hf]
        rfl

/-- The output of a callback: the lines that are unread. -/
theorem out_logChanged {t : Tail} (h : Fits t) {now : Int}
    (hnoticed : Noticed t (.logChanged now)) :
    (machine verifies version).out t (.logChanged now) = (WsHub.logLines t.unread).map fromUtf8 := by
  show lineValues (t.live.hub.emitLogTail t.live.log).2 = _
  rw [emitLogTail_unread h hnoticed, lineValues_logTail]

/-- The event is not about the log. -/
def Other (e : LiveEvent) : Prop :=
  (∀ chunk, e ≠ .logAppended chunk) ∧ e ≠ .logTruncated ∧ ∀ now, e ≠ .logChanged now

theorem event_cases (e : LiveEvent) :
    (∃ chunk, e = .logAppended chunk) ∨ e = .logTruncated ∨ (∃ now, e = .logChanged now) ∨
      Other e := by
  by_cases happended : ∃ chunk, e = .logAppended chunk
  · exact .inl happended
  · by_cases htruncated : e = .logTruncated
    · exact .inr (.inl htruncated)
    · by_cases hchanged : ∃ now, e = .logChanged now
      · exact .inr (.inr (.inl hchanged))
      · exact .inr (.inr (.inr ⟨not_exists.mp happended, htruncated, not_exists.mp hchanged⟩))

/-- Every other event leaves the log and the position of the tail alone, and sends
nothing of the log. -/
theorem live_step_other {c : LiveChannel} {e : LiveEvent} (h : Other e) :
    (LiveChannel.step verifies version c e).1.log = c.log ∧
      (LiveChannel.step verifies version c e).1.hub.logPos = c.hub.logPos ∧
      lineValues (LiveChannel.step verifies version c e).2.broadcast = [] := by
  obtain ⟨happended, htruncated, hchanged⟩ := h
  cases e with
  | logAppended chunk => exact absurd rfl (happended chunk)
  | logTruncated => exact absurd rfl htruncated
  | logChanged now => exact absurd rfl (hchanged now)
  | upgrade path cookie now =>
    simp only [LiveChannel.step]
    split
    · split
      · exact ⟨rfl, rfl, rfl⟩
      · split
        · exact ⟨rfl, rfl, rfl⟩
        · exact ⟨rfl, rfl, rfl⟩
    · exact ⟨rfl, rfl, rfl⟩
  | _ => exact ⟨rfl, rfl, rfl⟩

theorem next_other {t : Tail} {e : LiveEvent} (h : Other e) :
    (machine verifies version).next t e =
      { t with live := (LiveChannel.step verifies version t.live e).1 } := by
  have hsent : lineValues (LiveChannel.step verifies version t.live e).2.broadcast = [] :=
    (live_step_other h).2.2
  obtain ⟨happended, htruncated, hchanged⟩ := h
  cases e with
  | logAppended chunk => exact absurd rfl (happended chunk)
  | logTruncated => exact absurd rfl htruncated
  | logChanged now => exact absurd rfl (hchanged now)
  | _ =>
    simp only [next, machine, step]
    rw [hsent, List.append_nil]

theorem Fits.appended {t : Tail} (h : Fits t) (chunk : Bytes) :
    Fits ((machine verifies version).next t (.logAppended chunk)) := by
  refine ⟨nofun, ?_, ?_⟩
  · intro f hf hkept
    obtain rfl := Option.some.inj hf
    cases hlog : t.live.log with
    | none =>
      obtain ⟨hunread, hpos⟩ := h.absent hlog
      exact ⟨[], by simp [Machine.next, machine, step, hunread], hpos⟩
    | some g =>
      obtain ⟨seen, hg, hpos⟩ := h.kept g hlog hkept
      exact ⟨seen, by simp [Machine.next, machine, step, hg], hpos⟩
  · intro f hf hrest
    obtain rfl := Option.some.inj hf
    cases hlog : t.live.log with
    | none =>
      obtain ⟨hunread, -⟩ := h.absent hlog
      simp [Machine.next, machine, step, hunread]
    | some g =>
      have hg := h.rest g hlog hrest
      simp [Machine.next, machine, step, hg]

theorem Fits.truncated {t : Tail} (h : Fits t) :
    Fits ((machine verifies version).next t .logTruncated) := by
  have hlog : ((machine verifies version).next t .logTruncated).live.log =
    t.live.log.map fun _ => [] := rfl
  refine ⟨?_, nofun, ?_⟩
  · intro hnone
    rw [hlog, Option.map_eq_none_iff] at hnone
    exact ⟨rfl, (h.absent hnone).2⟩
  · intro f hf _
    rw [hlog, Option.map_eq_some_iff] at hf
    obtain ⟨_, -, rfl⟩ := hf
    rfl

theorem Fits.changed {t : Tail} (h : Fits t) {now : Int} (hnoticed : Noticed t (.logChanged now)) :
    Fits ((machine verifies version).next t (.logChanged now)) := by
  have hpos : ((machine verifies version).next t (.logChanged now)).live.hub.logPos =
      (t.live.log.getD []).length := by
    show (t.live.hub.emitLogTail t.live.log).1.logPos = _
    rw [emitLogTail_unread h hnoticed]
  refine ⟨fun hnone => ⟨rfl, ?_⟩, fun f hf _ => ⟨f, (List.append_nil f).symm, ?_⟩, nofun⟩
  · rw [hpos, show t.live.log = none from hnone]
    rfl
  · rw [hpos, show t.live.log = some f from hf]
    rfl

theorem Fits.congr {t : Tail} (h : Fits t) {live : LiveChannel} (hlog : live.log = t.live.log)
    (hpos : live.hub.logPos = t.live.hub.logPos) : Fits { t with live := live } where
  absent hnone := by
    rw [hlog] at hnone
    rw [hpos]
    exact h.absent hnone
  kept f hf hkept := by
    rw [hlog] at hf
    rw [hpos]
    exact h.kept f hf hkept
  rest f hf hrest := by
    rw [hlog] at hf
    exact h.rest f hf hrest

/-- One event keeps the record fitting. -/
theorem Fits.next {t : Tail} (h : Fits t) {e : LiveEvent} (hnoticed : Noticed t e) :
    Fits ((machine verifies version).next t e) := by
  rcases event_cases e with ⟨chunk, rfl⟩ | rfl | ⟨now, rfl⟩ | hother
  · exact h.appended chunk
  · exact h.truncated
  · exact h.changed hnoticed
  · obtain ⟨hlog, hpos, -⟩ := @live_step_other verifies version t.live e hother
    rw [next_other hother]
    exact h.congr hlog hpos

/-- What an event ought to broadcast of the log: a callback, the lines that are unread. -/
def due (t : Tail) : LiveEvent → List String
  | .logChanged _ => (WsHub.logLines t.unread).map fromUtf8
  | _ => []

theorem out_eq_due {t : Tail} (h : Fits t) {e : LiveEvent} (hnoticed : Noticed t e) :
    (machine verifies version).out t e = due t e := by
  rcases event_cases e with ⟨chunk, rfl⟩ | rfl | ⟨now, rfl⟩ | hother
  · rfl
  · rfl
  · exact out_logChanged h hnoticed
  · have hsilent : lineValues (LiveChannel.step verifies version t.live e).2.broadcast = [] :=
      (live_step_other hother).2.2
    cases e with
    | logChanged now => exact absurd rfl (hother.2.2 now)
    | _ => exact hsilent

/-- **The live log survives truncation.** In every run from start-up in which a log that
was truncated is found shorter than the position of the tail, or the tail was at the
beginning, each callback broadcasts exactly the lines that were appended since the last
one and are still in the log, in order, and nothing else is broadcast of the log. -/
theorem truncation_survived (verifies : Bool) (version : String) (sessions : SessionStore)
    (log : Option Bytes) (es : List LiveEvent)
    (h : (machine verifies version).Along Noticed (start sessions log) es) :
    (machine verifies version).Along
      (fun t e => (machine verifies version).out t e = due t e) (start sessions log) es :=
  along_of_invariant (I := Fits) (fun _ _ hfits hnoticed => hfits.next hnoticed)
    (fun _ _ hfits hnoticed => out_eq_due hfits hnoticed) (fits_start sessions log) h

/-- The record of an append-only log, whose lines were sent as far as it was read. -/
structure Sound (t : Tail) : Prop where
  fits : Fits t
  kept : t.truncated = false
  appended : t.appended = t.read ++ t.unread
  lines : t.lines = (WsHub.logLines t.read).map fromUtf8

theorem Sound.next {t : Tail} (h : Sound t) {e : LiveEvent} (hjoins : JoinsLines t e) :
    Sound ((machine verifies version).next t e) := by
  have hnoticed : Noticed t e := fun now _ htruncated => by
    rw [h.kept] at htruncated
    cases htruncated
  have hfits : Fits ((machine verifies version).next t e) := h.fits.next hnoticed
  have hout : (machine verifies version).out t e = due t e := out_eq_due h.fits hnoticed
  have hlines : ((machine verifies version).next t e).lines = t.lines ++ due t e := by
    rw [← hout]
    cases e <;> rfl
  cases e with
  | logTruncated => exact absurd rfl hjoins.1
  | logAppended chunk =>
    refine ⟨hfits, h.kept, ?_, ?_⟩
    · show t.appended ++ chunk = t.read ++ (t.unread ++ chunk)
      rw [h.appended, List.append_assoc]
    · rw [hlines, h.lines]
      exact List.append_nil _
  | logChanged now =>
    refine ⟨hfits, rfl, ?_, ?_⟩
    · show t.appended = (t.read ++ t.unread) ++ []
      rw [h.appended, List.append_nil]
    · rw [hlines, h.lines]
      show _ = (WsHub.logLines (t.read ++ t.unread)).map fromUtf8
      rw [(logLines_append_iff t.read t.unread).mpr (hjoins.2 now rfl), List.map_append]
      rfl
  | _ =>
    refine ⟨hfits, h.kept, h.appended, ?_⟩
    rw [hlines, h.lines]
    exact List.append_nil _

/-- A hub that verifies upgrades, with the record. -/
abbrev demo : Machine Tail LiveEvent (List String) := machine true "1"

/-- A log is rotated, and the next callback finds it shorter than it was. -/
def shortAfterRotation : List LiveEvent :=
  [.logAppended (toUtf8 "old line\n"), .logChanged 1, .logTruncated, .logAppended (toUtf8 "one\n"),
    .logChanged 2]

/-- A log is rotated, and grows past its old length before the next callback. -/
def longAfterRotation : List LiveEvent :=
  [.logAppended (toUtf8 "old\n"), .logChanged 1, .logTruncated,
    .logAppended (toUtf8 "one\n"), .logAppended (toUtf8 "two\n"), .logChanged 2]

theorem noticed_of_kept {t : Tail} {e : LiveEvent} (h : t.truncated = false) : Noticed t e := by
  intro _ _ htruncated
  rw [h] at htruncated
  cases htruncated

theorem truncation_survived_shortAfterRotation :
    demo.Along Noticed (start {} none) shortAfterRotation ∧
      demo.Along (fun t e => demo.out t e = due t e) (start {} none) shortAfterRotation ∧
      demo.outputs (start {} none) shortAfterRotation = [[], ["old line"], [], [], ["one"]] := by
  have hnoticed : demo.Along Noticed (start {} none) shortAfterRotation :=
    ⟨noticed_of_kept rfl, noticed_of_kept rfl, noticed_of_kept rfl, nofun,
      fun _ _ _ => .inl (by decide +kernel), trivial⟩
  exact ⟨hnoticed, truncation_survived true "1" {} none shortAfterRotation hnoticed,
    by decide +kernel⟩

/-- The first line after the truncation is in the log at the callback, and is not sent. -/
theorem longAfterRotation_skips :
    (demo.run (start {} none) longAfterRotation).live.log = some (toUtf8 "one\ntwo\n") ∧
      demo.outputs (start {} none) longAfterRotation = [[], ["old"], [], [], [], ["two"]] := by
  constructor
  · decide +kernel
  · decide +kernel

end Tail

end TiBackup
