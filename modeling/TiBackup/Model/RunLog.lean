import TiBackup.Auth.Checks

/-!
# TiBackup.Model.RunLog

The handlers that answer with the text of a run log, GET /api/logs/runs/<file> and GET
/api/logs/rsync/<job>/<file>, one file operation at a time. The backup thread and rsync
append to these files while they are read, between any two operations.

On a file that stands still the operations add up to `Api.runLog` and `Api.rsyncLog`
(`runLog_eq_steps`, `rsyncLog_eq_steps`).
-/

namespace TiBackup

open Lib

/-! ### Text of a log -/

/-- What `readAll` of a file in text mode becomes in an answer. -/
def readText (bs : Bytes) : String := fromUtf8 (Api.textMode bs)

/-- Bytes that are read as what they say: whole UTF-8 characters without carriage
returns and byte-order marks. -/
structure PlainText (bs : Bytes) : Prop where
  noReturn : 13 ∉ bs
  encoded : ∃ s : String, bs = toUtf8 s ∧ Char.ofNat 0xfeff ∉ s.toList

theorem textMode_of_not_mem {bs : Bytes} (h : 13 ∉ bs) : Api.textMode bs = bs := by
  induction bs using Api.textMode.induct with
  | case1 rest ih => exact absurd List.mem_cons_self h
  | case2 b rest hb ih =>
    rw [Api.textMode, ih fun hmem => h (List.mem_cons_of_mem b hmem)]
    exact hb
  | case3 => rfl

/-- The bytes can be read off the text. -/
theorem PlainText.toUtf8_readText {bs : Bytes} (h : PlainText bs) : toUtf8 (readText bs) = bs := by
  obtain ⟨s, hs, hmark⟩ := h.encoded
  rw [readText, textMode_of_not_mem h.noReturn, hs, fromUtf8_toUtf8 hmark]

theorem plainText_of_ascii {bs : Bytes} (h : ∀ b ∈ bs, b < 128 ∧ b ≠ 13) : PlainText bs where
  noReturn hmem := (h 13 hmem).2 rfl
  encoded := exists_toUtf8_of_ascii fun b hb => (h b hb).1

@[simp] theorem plainText_nil : PlainText [] := plainText_of_ascii nofun

/-! ### Slices of a file -/

/-- The bytes from one position to another. -/
def slice (bs : Bytes) (i j : Nat) : Bytes := (bs.take j).drop i

theorem slice_length (bs : Bytes) (i : Nat) : slice bs i bs.length = bs.drop i := by
  rw [slice, List.take_length]

theorem length_slice_le (bs : Bytes) (i j : Nat) : (slice bs i j).length ≤ bs.length := by
  rw [slice, List.length_drop, List.length_take]
  omega

theorem slice_append_slice (bs : Bytes) {i j k : Nat} (hij : i ≤ j) (hjk : j ≤ k) :
    slice bs i j ++ slice bs j k = slice bs i k := by
  have htake : bs.take j = (bs.take k).take j := by rw [List.take_take, Nat.min_eq_left hjk]
  have hdrop : (bs.take k).drop j = ((bs.take k).drop i).drop (j - i) := by
    rw [List.drop_drop, Nat.add_sub_cancel' hij]
  rw [slice, slice, slice, htake, hdrop, List.drop_take, List.take_append_drop]

/-- What is appended later does not change a slice. -/
theorem slice_append (bs more : Bytes) (i : Nat) {j : Nat} (h : j ≤ bs.length) :
    slice (bs ++ more) i j = slice bs i j := by
  rw [slice, slice, List.take_append_of_le_length h]

/-! ### One operation after the other -/

/-- What a request asks for: a run log, perhaps from an offset, or an rsync log. -/
structure LogAsk where
  run : Bool
  offset : Option Int := none
  full : Bool := false
  deriving Repr, DecidableEq

/-- An answer; the next offset comes with run logs only. -/
structure LogAnswer where
  text : String
  truncated : Bool
  offset : Option Nat
  deriving Repr, DecidableEq

/-- How far a handler is with the opened file. -/
inductive LogRead
  | opened (offset : Option Int) (full : Bool)
  /-- `f.size()` was taken. -/
  | sized (offset : Option Int) (full : Bool) (size : Nat)
  /-- At the beginning of `readLogForView`. -/
  | viewing (size : Option Nat) (full : Bool)
  /-- Past `f.seek(v.size - cap)`, before `f.readLine()`. -/
  | atLine (size : Option Nat) (pos : Nat)
  /-- Before `f.readAll()`. -/
  | reading (size : Option Nat) (pos : Nat) (truncated : Bool)
  | answered (a : LogAnswer)
  deriving Repr, DecidableEq

namespace LogRead

/-- A file has been opened for a request. -/
def start (ask : LogAsk) : LogRead :=
  if ask.run then opened ask.offset ask.full else viewing none ask.full

/-- How far `readLine` moves. -/
def lineLength (bs : Bytes) : Nat := bs.length - (Api.dropLine bs).length

/-- The next operation, on the file as it is by now. -/
def step (file : Bytes) : LogRead → LogRead
  | opened offset full => sized offset full file.length
  | sized offset full size =>
    match offset with
    | some o =>
      -- A log that is shorter than the offset was rotated, and is viewed anew.
      if 0 ≤ o ∧ o ≤ size then reading (some size) o.toNat false else viewing (some size) full
    | none => viewing (some size) full
  | viewing size full =>
    -- `readLogForView` takes the size of the file again.
    let cap := if full then Api.kMaxLogFullBytes else Api.kMaxLogPreviewBytes
    if file.length > cap then atLine size (file.length - cap) else reading size 0 false
  | atLine size pos => reading size (pos + lineLength (file.drop pos)) true
  | reading size pos truncated =>
    -- The next offset is the size that was taken, not where the reading stopped.
    answered { text := readText (file.drop pos), truncated := truncated, offset := size }
  | answered a => answered a

/-- All operations of a request, with nobody writing. -/
def steps (file : Bytes) (p : LogRead) : LogRead :=
  step file (step file (step file (step file (step file p))))

/-- A request goes on from its offset, or gets a view. -/
theorem step_sized (file : Bytes) (offset : Option Int) (full : Bool) (size : Nat) :
    step file (sized offset full size) = viewing (some size) full ∨
      ∃ pos, step file (sized offset full size) = reading (some size) pos false := by
  cases offset with
  | none => exact .inl rfl
  | some o =>
    by_cases hrange : 0 ≤ o ∧ o ≤ size
    · exact .inr ⟨o.toNat, if_pos hrange⟩
    · exact .inl (if_neg hrange)

/-- A view begins at a line near the end, or is the whole file. -/
theorem step_viewing (file : Bytes) (size : Option Nat) (full : Bool) :
    (∃ cap, step file (viewing size full) = atLine size (file.length - cap)) ∨
      step file (viewing size full) = reading size 0 false := by
  rw [step]
  generalize (if full then Api.kMaxLogFullBytes else Api.kMaxLogPreviewBytes) = cap
  split
  · exact .inl ⟨cap, rfl⟩
  · exact .inr rfl

/-- What is behind a line is what `dropLine` leaves. -/
theorem drop_lineLength (file : Bytes) (pos : Nat) :
    file.drop (pos + lineLength (file.drop pos)) = Api.dropLine (file.drop pos) := by
  have hsuffix : Api.dropLine (file.drop pos) <:+ file.drop pos :=
    (List.drop_suffix 1 _).trans (List.dropWhile_suffix _)
  rw [← List.drop_drop, lineLength]
  exact (List.suffix_iff_eq_drop.mp hsuffix).symm

/-- The answer with a view of a quiet file. -/
def viewAnswer (file : Bytes) (full : Bool) (size : Option Nat) : LogAnswer where
  text := (Api.readLogForView file full).text
  truncated := (Api.readLogForView file full).truncated
  offset := size

/-- The view of a quiet file is that of `readLogForView`. -/
theorem steps_viewing (file : Bytes) (size : Option Nat) (full : Bool) :
    step file (step file (step file (viewing size full))) =
      answered (viewAnswer file full size) := by
  simp only [step, viewAnswer, Api.readLogForView]
  by_cases hcap : file.length > if full then Api.kMaxLogFullBytes else Api.kMaxLogPreviewBytes
  · simp only [if_pos hcap, drop_lineLength]
    rfl
  · simp only [if_neg hcap, List.drop_zero]
    rfl

end LogRead

/-- The JSON of an answer. -/
def LogAnswer.toJson (a : LogAnswer) : Json :=
  .obj ([("text", .str a.text), ("truncated", .bool a.truncated)] ++
    match a.offset with
    | some n => [("offset", .int n)]
    | none => [])

variable {L : Library}

namespace Api

/-- On a quiet file the handler answers with what the operations come to. -/
theorem runLog_eq_steps {st : State L} {req : Request} {m : Moment} {s : Session} {file : String}
    {content : Bytes} (hlive : LiveSession st m.now req s) (hname : plainFileName file = true)
    (hread : L.system.readFile st.host (L.getLogsDetailDir st.conf ++ "/" ++ file ++ ".log") =
      some content) :
    ∃ a, LogRead.steps content (.opened (parseInt64 (queryItemValue req "offset"))
        (queryItemValue req "full" = "1")) = .answered a ∧
      (runLog file req m st).2 = .now (jsonResp a.toJson) := by
  rw [runLog, withAuth_of_live hlive, reads]
  have hread' : L.system.readFile (st.validated m.now req).host
      (L.getLogsDetailDir (st.validated m.now req).conf ++ "/" ++ file ++ ".log") =
        some content := hread
  simp only [hname, hread', Bool.not_true, Bool.false_eq_true, if_false]
  generalize decide (queryItemValue req "full" = "1") = full
  cases parseInt64 (queryItemValue req "offset") with
  | none =>
    exact ⟨LogRead.viewAnswer content full (some content.length),
      LogRead.steps_viewing content _ full, rfl⟩
  | some offset =>
    by_cases hrange : 0 ≤ offset ∧ offset ≤ content.length
    · refine ⟨{ text := readText (content.drop offset.toNat), truncated := false,
                offset := some content.length }, ?_, ?_⟩
      · simp only [LogRead.steps, LogRead.step, if_pos hrange]
      · simp only [if_pos hrange]
        rfl
    · refine ⟨LogRead.viewAnswer content full (some content.length), ?_, ?_⟩
      · have hsized : LogRead.step content (.sized (some offset) full content.length) =
            .viewing (some content.length) full := if_neg hrange
        rw [LogRead.steps]
        show LogRead.step content (LogRead.step content (LogRead.step content
          (LogRead.step content (.sized (some offset) full content.length)))) = _
        rw [hsized, LogRead.steps_viewing]
      · simp only [if_neg hrange]
        rfl

/-- The same for the rsync logs, which have no offset. -/
theorem rsyncLog_eq_steps {st : State L} {req : Request} {m : Moment} {s : Session}
    {job file : String} {content : Bytes} (hlive : LiveSession st m.now req s)
    (hjob : validIdentifier job = true) (hdetail : job ≠ L.system.backupDetailFolder)
    (hname : plainFileName file = true)
    (hread : L.system.readFile st.host
      ((st.getValue "paths/logs").toString ++ "/" ++ job ++ "/" ++ file ++ ".log") = some content) :
    ∃ a, LogRead.steps content (.viewing none (queryItemValue req "full" = "1")) = .answered a ∧
      (rsyncLog job file req m st).2 = .now (jsonResp a.toJson) := by
  rw [rsyncLog, withAuth_of_live hlive, reads]
  have hread' : L.system.readFile (st.validated m.now req).host
      (((st.validated m.now req).getValue "paths/logs").toString ++ "/" ++ job ++ "/" ++ file ++
        ".log") = some content := hread
  simp only [hjob, hdetail, hname, hread', Bool.not_true, Bool.false_eq_true, if_false,
    decide_false, Bool.or_self]
  generalize decide (queryItemValue req "full" = "1") = full
  refine ⟨LogRead.viewAnswer content full none, ?_, rfl⟩
  rw [LogRead.steps, LogRead.steps_viewing]
  rfl

end Api

end TiBackup
