import TiBackup.Logs.Preview
import TiBackup.Model.LogPage

/-!
# TiBackup.Logs.LastLines

**The last lines of the daemon log.** GET /api/logs/main?lines=N splits the end of the log
at its line breaks and answers with the last N pieces. The piece behind the final line
break counts as one of them although it is no line, so one line less is answered than was
asked for; and in a log over 256 KiB the first piece is what the cut has left of a line.
Each piece is decoded on its own, so a line that begins with a byte-order mark loses it.

The lines that were asked for are answered exactly when there are fewer of them in the end
of the log than pieces are taken, no more pieces than lines unless the cut was at a line,
and none of the lines of the end begins with a mark (`mainLog_lastLines_iff`).
-/

namespace TiBackup

open Lib

/-! ### Logs of lines -/

/-- A log of lines, each ended by a line break. -/
structure LineLog where
  lines : List String
  noBreak : ∀ l ∈ lines, '\n' ∉ l.toList

/-- Lines as they stand in a file. -/
def lineBytes (ls : List String) : Bytes := ls.flatMap fun l => toUtf8 l ++ [10]

def LineLog.bytes (log : LineLog) : Bytes := lineBytes log.lines

/-- The lines that lie entirely within the last `cap` bytes. -/
def linesWithin (cap : Nat) : List String → List String
  | [] => []
  | l :: ls => if (lineBytes (l :: ls)).length ≤ cap then l :: ls else linesWithin cap ls

/-- The lines of a text, the last of which may or may not be ended by a line break. -/
def textLines (text : String) : List String :=
  let pieces := splitLines text
  if pieces.getLast? = some "" then pieces.dropLast else pieces

theorem lineBytes_cons (l : String) (ls : List String) :
    lineBytes (l :: ls) = toUtf8 l ++ 10 :: lineBytes ls := by
  simp [lineBytes]

theorem length_lineBytes_linesWithin_le (cap : Nat) (ls : List String) :
    (lineBytes (linesWithin cap ls)).length ≤ cap := by
  induction ls with
  | nil => exact Nat.zero_le _
  | cons l ls ih =>
    rw [linesWithin]
    split
    · assumption
    · exact ih

theorem length_le_length_lineBytes (ls : List String) : ls.length ≤ (lineBytes ls).length := by
  induction ls with
  | nil => exact Nat.zero_le _
  | cons l ls ih =>
    rw [lineBytes_cons, List.length_append, List.length_cons, List.length_cons]
    omega

theorem linesWithin_of_le {cap : Nat} {ls : List String} (h : (lineBytes ls).length ≤ cap) :
    linesWithin cap ls = ls := by
  cases ls with
  | nil => rfl
  | cons l ls => rw [linesWithin, if_pos h]

theorem linesWithin_isSuffix (cap : Nat) (ls : List String) : linesWithin cap ls <:+ ls := by
  induction ls with
  | nil => exact List.suffix_refl _
  | cons l ls ih =>
    rw [linesWithin]
    split
    · exact List.suffix_refl _
    · exact ih.trans (List.suffix_cons _ _)

theorem newline_not_mem_toUtf8 {s : String} (h : '\n' ∉ s.toList) : 10 ∉ toUtf8 s :=
  not_mem_toUtf8 (d := '\n') (by decide) h

/-! ### The end of a log -/

/-- The last `cap` bytes of a log. -/
def logEnd (cap : Nat) (bs : Bytes) : Bytes := bs.drop (bs.length - cap)

/-- They begin at a line. -/
def CleanEnd (cap : Nat) (bs : Bytes) : Prop := bs.length ≤ cap ∨ CutAtLine cap bs

theorem cutAtLine_append {cap : Nat} (front : Bytes) {bs : Bytes} (h : cap < bs.length) :
    CutAtLine cap (front ++ bs) ↔ CutAtLine cap bs := by
  have hpos : (front ++ bs).length - cap - 1 = front.length + (bs.length - cap - 1) := by
    rw [List.length_append]
    omega
  rw [CutAtLine, CutAtLine, hpos, List.getElem?_append_right (Nat.le_add_right _ _),
    Nat.add_sub_cancel_left]
  refine and_congr_left' ⟨fun _ => h, fun _ => ?_⟩
  rw [List.length_append]
  omega

/-- The end of a log has the lines that lie within it, and perhaps the end of one more. -/
theorem logEnd_cases (cap : Nat) {ls : List String} (h : ∀ l ∈ ls, '\n' ∉ l.toList) :
    CleanEnd cap (lineBytes ls) ∧ logEnd cap (lineBytes ls) = lineBytes (linesWithin cap ls) ∨
      ¬ CleanEnd cap (lineBytes ls) ∧ ∃ part, 10 ∉ part ∧
        logEnd cap (lineBytes ls) = part ++ 10 :: lineBytes (linesWithin cap ls) := by
  induction ls with
  | nil => exact .inl ⟨.inl (Nat.zero_le _), List.drop_nil⟩
  | cons l ls ih =>
    have hline : 10 ∉ toUtf8 l := newline_not_mem_toUtf8 (h l List.mem_cons_self)
    have hlength : (lineBytes (l :: ls)).length = (toUtf8 l).length + 1 + (lineBytes ls).length := by
      rw [lineBytes_cons, List.length_append, List.length_cons]
      omega
    rcases Nat.lt_or_ge cap (lineBytes (l :: ls)).length with hlong | hshort
    · have hwithin : linesWithin cap (l :: ls) = linesWithin cap ls := by
        rw [linesWithin, if_neg (not_le.mpr hlong)]
      have hclean : CleanEnd cap (lineBytes (l :: ls)) ↔ CutAtLine cap (lineBytes (l :: ls)) :=
        or_iff_right (not_le.mpr hlong)
      have hfront : lineBytes (l :: ls) = (toUtf8 l ++ [10]) ++ lineBytes ls := by
        rw [lineBytes_cons, List.append_assoc, List.singleton_append]
      rcases Nat.lt_or_ge cap (lineBytes ls).length with hrest | hfits
      · -- the cut is behind this line
        have hend : logEnd cap (lineBytes (l :: ls)) = logEnd cap (lineBytes ls) := by
          have hpos : (lineBytes (l :: ls)).length - cap =
              (toUtf8 l ++ [10]).length + ((lineBytes ls).length - cap) := by
            rw [hlength, List.length_append, List.length_singleton]
            omega
          rw [logEnd, hpos, hfront, List.drop_append, logEnd,
            List.drop_eq_nil_of_le (Nat.le_add_right _ _), List.nil_append,
            Nat.add_sub_cancel_left]
        have hsame : CleanEnd cap (lineBytes (l :: ls)) ↔ CleanEnd cap (lineBytes ls) := by
          rw [hclean, hfront, cutAtLine_append _ hrest, CleanEnd, or_iff_right (not_le.mpr hrest)]
        rw [hsame, hend, hwithin]
        exact ih fun l hl => h l (List.mem_cons_of_mem _ hl)
      · rw [hwithin, linesWithin_of_le hfits, hclean, CutAtLine, logEnd, hlength]
        rw [hlength] at hlong
        rcases Nat.eq_or_lt_of_le hfits with heq | hlt
        · -- between this line and the next
          have hpos : (toUtf8 l).length + 1 + (lineBytes ls).length - cap =
              (toUtf8 l).length + 1 := by omega
          left
          rw [hpos, Nat.add_sub_cancel, lineBytes_cons]
          refine ⟨⟨hlong, by simp⟩, ?_⟩
          rw [List.drop_append, List.drop_eq_nil_of_le (by simp), List.nil_append,
            Nat.add_sub_cancel_left]
          rfl
        · -- in this line
          have hpos : (toUtf8 l).length + 1 + (lineBytes ls).length - cap ≤ (toUtf8 l).length := by
            omega
          have hbefore : (toUtf8 l).length + 1 + (lineBytes ls).length - cap - 1 <
              (toUtf8 l).length := by
            omega
          right
          rw [lineBytes_cons, List.drop_append_of_le_length hpos,
            List.getElem?_append_left hbefore]
          refine ⟨?_, _, ?_, rfl⟩
          · rintro ⟨-, hten⟩
            exact hline (List.mem_of_getElem? hten)
          · intro hmem
            exact hline (List.mem_of_mem_drop hmem)
    · refine .inl ⟨.inl hshort, ?_⟩
      rw [linesWithin_of_le hshort, logEnd, Nat.sub_eq_zero_of_le hshort, List.drop_zero]

/-! ### Pieces -/

/-- Every line is one piece, and one more stands behind the last line break. -/
theorem splitOn_lineBytes {ls : List String} (h : ∀ l ∈ ls, '\n' ∉ l.toList) :
    (lineBytes ls).splitOn 10 = ls.map toUtf8 ++ [[]] := by
  induction ls with
  | nil => rfl
  | cons l ls ih =>
    rw [lineBytes_cons,
      List.splitOn_append_cons_self_of_not_mem (newline_not_mem_toUtf8 (h l List.mem_cons_self)),
      ih fun l hl => h l (List.mem_cons_of_mem _ hl)]
    rfl

/-- A piece in front of them. -/
theorem splitOn_part_lineBytes {part : Bytes} (hpart : 10 ∉ part) {ls : List String}
    (h : ∀ l ∈ ls, '\n' ∉ l.toList) :
    (part ++ 10 :: lineBytes ls).splitOn 10 = part :: (ls.map toUtf8 ++ [[]]) := by
  rw [← splitOn_lineBytes h]
  exact List.splitOn_append_cons_self_of_not_mem hpart _

/-- Pieces are put together to a text of as many lines. -/
theorem textLines_intercalate {ps : List String} (h : ∀ p ∈ ps, '\n' ∉ p.toList) :
    textLines ("\n".intercalate (ps ++ [""])) = ps := by
  have hpieces : splitLines ("\n".intercalate (ps ++ [""])) = ps ++ [""] := by
    rw [splitLines, String.toList_intercalate]
    have hsplit : (['\n'].intercalate ((ps ++ [""]).map String.toList)).splitOn '\n' =
        (ps ++ [""]).map String.toList := by
      refine List.splitOn_intercalate '\n' ?_ (by simp)
      intro q hq
      obtain ⟨p, hp, rfl⟩ := List.mem_map.mp hq
      rcases List.mem_append.mp hp with hp | hp
      · exact h p hp
      · rw [List.mem_singleton.mp hp]
        exact List.not_mem_nil
    refine (congrArg (List.map String.ofList) hsplit).trans ?_
    rw [List.map_map, show String.ofList ∘ String.toList = id from
      funext fun _ => String.ofList_toList, List.map_id]
  rw [textLines, hpieces]
  simp

/-! ### The answer -/

/-- How many pieces are taken for a number: a number that `toInt` cannot read counts as
none. -/
def piecesAsked (n : Nat) : Nat := if 0 < n ∧ n ≤ 2147483647 then n else 200

theorem piecesAsked_pos (n : Nat) : 0 < piecesAsked n := by
  rw [piecesAsked]
  split
  · next h => exact h.1
  · decide

theorem asked_eq (n : Nat) :
    (if ((parseInt32 n.repr).getD 0).toNat = 0 then 200 else ((parseInt32 n.repr).getD 0).toNat) =
      piecesAsked n := by
  rw [piecesAsked]
  rcases Nat.lt_or_ge 2147483647 n with hlarge | hle
  · have hnone : parseInt32 n.repr = none := by
      rw [parseInt32, parseInt_repr, Option.filter_some, if_neg]
      simp only [decide_eq_true_eq]
      omega
    rw [hnone, if_neg (by omega : ¬ (0 < n ∧ n ≤ 2147483647))]
    rfl
  · rw [parseInt32_repr hle, Option.getD_some, Int.toNat_natCast]
    rcases Nat.eq_zero_or_pos n with rfl | hpos
    · rfl
    · rw [if_neg hpos.ne', if_pos ⟨hpos, hle⟩]

/-- What stands in front of the lines in the end of a log, of which the piece is the rest
of a line. -/
def LineLog.Front (log : LineLog) (cap : Nat) (front : List Bytes) : Prop :=
  CleanEnd cap log.bytes ∧ front = [] ∨
    ¬ CleanEnd cap log.bytes ∧ ∃ part, 10 ∉ part ∧ front = [part]

/-- The lines in the end of a log. -/
def LineLog.last (log : LineLog) : List String := linesWithin Api.kMaxLogTailBytes log.lines

theorem LineLog.noBreak_last (log : LineLog) : ∀ l ∈ log.last, '\n' ∉ l.toList :=
  fun l hl => log.noBreak l ((linesWithin_isSuffix _ _).subset hl)

theorem mainLogLines_lineLog (log : LineLog) (n : Nat) :
    ∃ front, log.Front Api.kMaxLogTailBytes front ∧
      Api.mainLogLines n.repr log.bytes =
        (front ++ log.last.map toUtf8).drop (front.length + log.last.length + 1 - piecesAsked n) ++
          [[]] := by
  have hend : (if log.bytes.length > Api.kMaxLogTailBytes then
      log.bytes.drop (log.bytes.length - Api.kMaxLogTailBytes) else log.bytes) =
        logEnd Api.kMaxLogTailBytes log.bytes := by
    rw [logEnd]
    split
    · rfl
    · next hle => rw [Nat.sub_eq_zero_of_le (not_lt.mp hle), List.drop_zero]
  have hsplit : ∃ front, log.Front Api.kMaxLogTailBytes front ∧
      (logEnd Api.kMaxLogTailBytes log.bytes).splitOn 10 =
        (front ++ log.last.map toUtf8) ++ [[]] := by
    rcases logEnd_cases Api.kMaxLogTailBytes log.noBreak with
      ⟨hclean, hbytes⟩ | ⟨hclean, part, hpart, hbytes⟩
    · refine ⟨[], .inl ⟨hclean, rfl⟩, ?_⟩
      rw [LineLog.bytes, hbytes, List.nil_append]
      exact splitOn_lineBytes log.noBreak_last
    · refine ⟨[part], .inr ⟨hclean, part, hpart, rfl⟩, ?_⟩
      rw [LineLog.bytes, hbytes]
      exact splitOn_part_lineBytes hpart log.noBreak_last
  obtain ⟨front, hfront, hpieces⟩ := hsplit
  refine ⟨front, hfront, ?_⟩
  have hasked := piecesAsked_pos n
  rw [Api.mainLogLines]
  simp only [asked_eq, hend, hpieces]
  have hlength : ((front ++ log.last.map toUtf8) ++ [[]]).length - piecesAsked n =
      front.length + log.last.length + 1 - piecesAsked n := by
    simp [Nat.add_assoc]
  rw [hlength, List.drop_append_of_le_length]
  rw [List.length_append, List.length_map]
  omega

/-- The answer is a text with these lines. -/
def AnswersLines (r : Reply) (ls : List String) : Prop :=
  ∃ text, r = .now (jsonResp (.obj [("text", .str text)])) ∧ textLines text = ls

/-- There are fewer lines in the end of the log than pieces are taken, the rest of another
one is not among these, and no line of the end begins with a mark that decoding drops. -/
structure LineLog.Fits (log : LineLog) (n : Nat) : Prop where
  fewer : log.last.length < piecesAsked n
  clean : CleanEnd Api.kMaxLogTailBytes log.bytes ∨ piecesAsked n = log.last.length + 1
  noMark : ∀ l ∈ log.last, l.toList.head? ≠ some (Char.ofNat 0xfeff)

theorem length_last_le (log : LineLog) : log.last.length ≤ Api.kMaxLogTailBytes :=
  (length_le_length_lineBytes _).trans (length_lineBytes_linesWithin_le _ _)

/-- The lines of the answer. -/
theorem textLines_mainLogText (log : LineLog) (n : Nat) :
    ∃ front, log.Front Api.kMaxLogTailBytes front ∧
      textLines (Api.mainLogText n.repr (some log.bytes)) =
        ((front ++ log.last.map toUtf8).drop
          (front.length + log.last.length + 1 - piecesAsked n)).map fromUtf8 := by
  obtain ⟨front, hfront, hpieces⟩ := mainLogLines_lineLog log n
  refine ⟨front, hfront, ?_⟩
  rw [Api.mainLogText_eq, hpieces, List.map_append, List.map_singleton, fromUtf8_nil]
  refine textLines_intercalate ?_
  intro p hp
  obtain ⟨bytes, hbytes, rfl⟩ := List.mem_map.mp hp
  rw [← List.count_eq_zero, count_newline_fromUtf8, List.count_eq_zero]
  rcases List.mem_append.mp (List.mem_of_mem_drop hbytes) with hmem | hmem
  · rcases hfront with ⟨-, rfl⟩ | ⟨-, part, hpart, rfl⟩
    · cases hmem
    · rwa [List.mem_singleton.mp hmem]
  · obtain ⟨l, hl, rfl⟩ := List.mem_map.mp hmem
    exact newline_not_mem_toUtf8 (log.noBreak_last l hl)

theorem map_fromUtf8_toUtf8_iff {ls : List String} :
    (ls.map toUtf8).map fromUtf8 = ls ↔
      ∀ l ∈ ls, l.toList.head? ≠ some (Char.ofNat 0xfeff) := by
  rw [List.map_map]
  constructor
  · intro heq l hl
    rw [← List.map_id ls, List.map_map] at heq
    exact fromUtf8_toUtf8_iff.mp (List.map_inj_left.mp heq l hl)
  · intro hmark
    refine (List.map_congr_left ?_).trans (List.map_id ls)
    intro l hl
    exact fromUtf8_toUtf8_iff.mpr (hmark l hl)

theorem textLines_mainLogText_iff (log : LineLog) {n : Nat} (hn : 0 < n) :
    textLines (Api.mainLogText n.repr (some log.bytes)) =
      log.last.drop (log.last.length - n) ↔ log.Fits n := by
  obtain ⟨front, hfront, hlines⟩ := textLines_mainLogText log n
  have hcap : log.last.length ≤ 2147483647 := (length_last_le log).trans (by decide)
  have hasked : piecesAsked n = n ∨ piecesAsked n = 200 ∧ 2147483647 < n := by
    rw [piecesAsked]
    split <;> omega
  -- when as many lines are shown as ought to be, they are the ones of the end
  have hall : log.last.length < piecesAsked n →
      (front = [] ∨ piecesAsked n = log.last.length + 1) →
        (front ++ log.last.map toUtf8).drop
          (front.length + log.last.length + 1 - piecesAsked n) = log.last.map toUtf8 := by
    rintro hfewer (rfl | hexact)
    · rw [List.nil_append, List.length_nil, Nat.zero_add, Nat.sub_eq_zero_of_le hfewer,
        List.drop_zero]
    · rw [hexact, Nat.add_assoc, Nat.add_sub_cancel, List.drop_left]
  have hexpected : log.last.length < piecesAsked n →
      log.last.drop (log.last.length - n) = log.last := by
    intro hfewer
    rw [Nat.sub_eq_zero_of_le (by omega), List.drop_zero]
  have hclean : front = [] ↔ CleanEnd Api.kMaxLogTailBytes log.bytes := by
    rcases hfront with ⟨hclean, rfl⟩ | ⟨hclean, part, -, rfl⟩
    · exact iff_of_true rfl hclean
    · exact iff_of_false (by simp) hclean
  rw [hlines]
  constructor
  · intro heq
    have hlength := congrArg List.length heq
    simp only [List.length_map, List.length_drop, List.length_append] at hlength
    have hfewer : log.last.length < piecesAsked n := by omega
    have hfront' : front = [] ∨ piecesAsked n = log.last.length + 1 := by
      rw [← List.length_eq_zero_iff]
      omega
    rw [hall hfewer hfront', hexpected hfewer] at heq
    exact ⟨hfewer, hfront'.imp_left hclean.mp, map_fromUtf8_toUtf8_iff.mp heq⟩
  · rintro ⟨hfewer, hend, hmark⟩
    rw [hall hfewer (hend.imp_left hclean.mpr), hexpected hfewer]
    exact map_fromUtf8_toUtf8_iff.mpr hmark

variable {L : Library}

/-- A live session is answered with the text for what is in the file. -/
theorem answersLines_mainLog {st : State L} {q : Request} {t : Moment} {s : Session}
    (hlive : LiveSession st t.now q s) {file : Bytes}
    (hfile : L.system.readFile st.host st.logPath = some file) {lines : String}
    (hlines : queryItemValue q "lines" = lines) (ls : List String) :
    AnswersLines (Api.mainLog q t st).2 ls ↔ textLines (Api.mainLogText lines (some file)) = ls := by
  rw [AnswersLines, Api.mainLog_eq hlive, hfile, hlines]
  generalize Api.mainLogText lines (some file) = answer
  constructor
  · rintro ⟨text, hreply, htext⟩
    have hbody := Json.obj.inj (congrArg Response.body (Reply.now.inj hreply))
    have hsame := Json.str.inj (congrArg Prod.snd (List.cons.inj hbody).1)
    rwa [hsame]
  · intro htext
    exact ⟨_, rfl, htext⟩

/-- **The last lines of the daemon log** are answered exactly when fewer of them are in
its end than pieces are taken, which begin at a line, and no mark is dropped. -/
theorem mainLog_lastLines_iff {st : State L} {q : Request} {t : Moment} {s : Session}
    (hlive : LiveSession st t.now q s) (log : LineLog)
    (hfile : L.system.readFile st.host st.logPath = some log.bytes) {n : Nat} (hn : 0 < n)
    (hlines : queryItemValue q "lines" = n.repr) :
    AnswersLines (Api.mainLog q t st).2 (log.last.drop (log.last.length - n)) ↔ log.Fits n :=
  (answersLines_mainLog hlive hfile hlines _).trans (textLines_mainLogText_iff log hn)

/-- A log of two lines, on a machine where it is the only file. -/
def twoLines : LineLog := ⟨["one", "two"], by decide⟩

def twoLinesHost : HostSystem :=
  { Reference.system with readFile := fun _ _ => some twoLines.bytes }

def twoLinesState : State (Reference.libraryOn twoLinesHost fun _ => "") :=
  Reference.stateOn twoLinesHost (fun _ => "") ∅ ()

theorem readFile_twoLines : (Reference.libraryOn twoLinesHost fun _ => "").system.readFile
    twoLinesState.host twoLinesState.logPath = some twoLines.bytes := rfl

/-- A request for so many lines. -/
def linesRequest (lines : String) : Request :=
  { Reference.request .null with query := [("lines", lines)] }

/-- Three pieces have the two lines, -/
theorem mainLog_lastLines_three :
    AnswersLines (Api.mainLog (linesRequest "3") (Reference.moment "") twoLinesState).2
      ["one", "two"] := by
  refine (mainLog_lastLines_iff (n := 3) (Reference.liveSession rfl rfl) twoLines
    readFile_twoLines (by decide) rfl).mpr ⟨by decide, .inl (.inl (by decide)), by decide⟩

/-- **and one piece has none.** -/
theorem mainLog_lastLines_one :
    AnswersLines (Api.mainLog (linesRequest "1") (Reference.moment "") twoLinesState).2 [] ∧
      ¬ ∀ (L : Library) (st : State L) (q : Request) (t : Moment) (s : Session),
        LiveSession st t.now q s → ∀ log : LineLog,
          L.system.readFile st.host st.logPath = some log.bytes → ∀ n : Nat, 0 < n →
            queryItemValue q "lines" = n.repr →
              AnswersLines (Api.mainLog q t st).2 (log.last.drop (log.last.length - n)) := by
  have hlive : LiveSession twoLinesState (Reference.moment "").now (linesRequest "1")
      { csrf := "csrf", lastSeen := 0 } := Reference.liveSession rfl rfl
  constructor
  · refine (answersLines_mainLog hlive readFile_twoLines rfl _).mpr ?_
    decide +kernel
  · intro hall
    have hone : queryItemValue (linesRequest "1") "lines" = Nat.repr 1 := rfl
    have hanswer := hall _ _ _ _ _ hlive twoLines readFile_twoLines 1 (by decide) hone
    have htext := (answersLines_mainLog hlive readFile_twoLines hone _).mp hanswer
    have hfits := (textLines_mainLogText_iff twoLines (by decide)).mp htext
    exact absurd hfits.fewer (by decide)

end TiBackup
