import TiBackup.Lib.Split
import TiBackup.Model.LogPage

/-!
# TiBackup.Logs.Levels

**The level of a message in the log view.** The daemon writes one mark for a message, behind
the time; the page reads a level off every line, from its first mark, and takes a line
without marks as an info. So the first line of a message is always read right, and the others
as what they look like (`logLevel_survives_iff`).
-/

namespace TiBackup

open Lib

/-! ### Marks -/

/-- The marks as they stand in a line. -/
def markTexts : List (List Char) := levelMarks.map fun p => p.1.toList

/-- The first mark in the line is one of this level. -/
def Tagged (l : LogLevel) (line : String) : Prop :=
  ∃ p ∈ levelMarks, p.2 = l ∧ ∃ front, FirstMark markTexts p.1.toList front line.toList

/-- No mark in the line. -/
def Untagged (line : String) : Prop := ∀ p ∈ levelMarks, ¬ p.1.toList <:+: line.toList

/-- No mark begins another one. -/
theorem levelMarks_inj : ∀ p ∈ levelMarks, ∀ p' ∈ levelMarks, p.1.toList <+: p'.1.toList → p = p' := by
  decide

/-- The level of the mark that a text begins with. -/
theorem findSome_levelMarks {p : String × LogLevel} (hp : p ∈ levelMarks) {rest : List Char}
    (hpre : p.1.toList <+: rest) :
    (levelMarks.findSome? fun p => if p.1.toList.isPrefixOf rest then some p.2 else none) =
      some p.2 := by
  cases hfind : levelMarks.findSome? fun p =>
      if p.1.toList.isPrefixOf rest then some p.2 else none with
  | none =>
    have hnone := List.findSome?_eq_none_iff.mp hfind p hp
    rw [if_pos (List.isPrefixOf_iff_prefix.mpr hpre)] at hnone
    cases hnone
  | some l =>
    obtain ⟨p', hp', hl⟩ := List.exists_of_findSome?_eq_some hfind
    split at hl
    · next hpre' =>
      obtain rfl := Option.some.inj hl
      rcases List.prefix_or_prefix_of_prefix hpre (List.isPrefixOf_iff_prefix.mp hpre') with h | h
      · rw [levelMarks_inj p hp p' hp' h]
      · rw [levelMarks_inj p' hp' p hp h]
    · cases hl

/-- Nothing is found where no mark begins. -/
theorem findSome_levelMarks_eq_none {rest : List Char}
    (h : ∀ p ∈ levelMarks, ¬ p.1.toList <+: rest) :
    (levelMarks.findSome? fun p => if p.1.toList.isPrefixOf rest then some p.2 else none) =
      none := by
  refine List.findSome?_eq_none_iff.mpr fun p hp => if_neg fun hpre => ?_
  exact h p hp (List.isPrefixOf_iff_prefix.mp hpre)

/-- A line has the level of its first mark. -/
theorem logLevelOf_of_tagged {l : LogLevel} {line : String} (h : Tagged l line) :
    logLevelOf line = l := by
  obtain ⟨p, hp, rfl, front, hfirst⟩ := h
  rw [logLevelOf]
  have hfind : (line.toList.tails.findSome? fun rest =>
      levelMarks.findSome? fun p => if p.1.toList.isPrefixOf rest then some p.2 else none) =
        some p.2 := by
    generalize line.toList = s at hfirst
    induction front generalizing s with
    | nil =>
      have hhead := findSome_levelMarks hp hfirst.occurs
      cases s with
      | nil => rw [List.tails, List.findSome?_cons, hhead]
      | cons c cs => rw [List.tails_cons, List.findSome?_cons, hhead]
    | cons c front ih =>
      cases s with
      | nil =>
        have hnil := List.prefix_nil.mp hfirst.occurs
        cases hnil
      | cons d cs =>
        obtain ⟨rfl, hnone, hrest⟩ := firstMark_cons_iff.mp hfirst
        rw [List.tails_cons, List.findSome?_cons, findSome_levelMarks_eq_none]
        · exact ih cs hrest
        · exact fun p hp => hnone _ (List.mem_map_of_mem hp)
  rw [hfind]
  rfl

/-- A line without marks is an info. -/
theorem logLevelOf_of_untagged {line : String} (h : Untagged line) : logLevelOf line = .info := by
  rw [logLevelOf]
  have hfind : (line.toList.tails.findSome? fun rest =>
      levelMarks.findSome? fun p => if p.1.toList.isPrefixOf rest then some p.2 else none) =
        none := by
    refine List.findSome?_eq_none_iff.mpr fun rest hrest => findSome_levelMarks_eq_none ?_
    intro p hp hpre
    exact h p hp (hpre.isInfix.trans ((List.mem_tails _ _).mp hrest).isInfix)
  rw [hfind]
  rfl

theorem tagged_or_untagged (line : String) : Untagged line ∨ ∃ l, Tagged l line := by
  rcases firstMark_or_not (by decide : [] ∉ markTexts) line.toList with h | ⟨m, front, hfirst⟩
  · exact .inl fun p hp => h _ (List.mem_map_of_mem hp)
  · obtain ⟨p, hp, rfl⟩ := List.mem_map.mp hfirst.mem
    exact .inr ⟨p.2, p, hp, rfl, front, hfirst⟩

/-- **What a line is read as.** -/
theorem logLevelOf_iff {l : LogLevel} {line : String} :
    logLevelOf line = l ↔ Tagged l line ∨ Untagged line ∧ l = .info := by
  constructor
  · rintro rfl
    rcases tagged_or_untagged line with h | ⟨l, h⟩
    · exact .inr ⟨h, logLevelOf_of_untagged h⟩
    · rw [logLevelOf_of_tagged h]
      exact .inl h
  · rintro (h | ⟨h, rfl⟩)
    · exact logLevelOf_of_tagged h
    · exact logLevelOf_of_untagged h

/-! ### Records -/

/-- The level of a type of messages. -/
def QtMsgType.level : QtMsgType → LogLevel
  | .debug => .debug
  | .info => .info
  | .warning => .warn
  | .critical => .error
  | .fatal => .crit

/-- White space only. -/
def BlankLine (line : String) : Prop := line.toList.all isTrimmedChar = true

instance (line : String) : Decidable (BlankLine line) := inferInstanceAs (Decidable (_ = _))

/-- The page reads every line of a record at this level, so that the lines are shown together
or not at all. -/
structure ReadAt (level : LogLevel) (record : String) : Prop where
  level_eq : ∀ e ∈ logEntries (splitLines record), e.level = level
  together : ∀ selected, (∀ e ∈ logEntries (splitLines record), shows selected e = true) ∨
    ∀ e ∈ logEntries (splitLines record), shows selected e = false

/-- The lines of a message besides the one with the mark: those of the text behind its first
line, and those of the time, which is in one line, before its last one. -/
def otherLines (msg : LogMessage) : List String :=
  (splitLines msg.time).dropLast ++ (splitLines msg.str).tail

/-- A line without a mark of its own that goes with messages of this type. -/
def Fits (type : QtMsgType) (line : String) : Prop :=
  BlankLine line ∨ Tagged type.level line ∨ Untagged line ∧ type = .info

/-- What is written for a message, line by line. -/
theorem splitLines_line (msg : LogMessage) : ∃ before after : String,
    (∀ c ∈ before.toList, c ∈ msg.time.toList) ∧ splitLines msg.line =
      (splitLines msg.time).dropLast ++
        (before ++ " [" ++ levelTag msg.type ++ "] " ++ after) :: (splitLines msg.str).tail ++
          [""] := by
  have hmark : '\n' ∉ (" [" ++ levelTag msg.type ++ "] ").toList := by cases msg.type <;> decide
  have hline : msg.line.toList = msg.time.toList ++
      ((" [" ++ levelTag msg.type ++ "] ").toList ++ (msg.str.toList ++ '\n' :: [])) := by
    simp [LogMessage.line]
  obtain ⟨front, last, first, rest, htime, hrest, hall⟩ :=
    splitOn_append (a := '\n') msg.time.toList
      ((" [" ++ levelTag msg.type ++ "] ").toList ++ (msg.str.toList ++ '\n' :: []))
  obtain ⟨after, lines, hstr⟩ :=
    List.exists_cons_of_ne_nil (List.splitOn_ne_nil '\n' msg.str.toList)
  rw [splitOn_append_of_not_mem hmark, List.splitOn_append_cons_self, hstr, List.splitOn_nil] at hrest
  obtain ⟨rfl, rfl⟩ := List.cons.inj hrest
  refine ⟨String.ofList last, String.ofList after, ?_, ?_⟩
  · intro c hc
    rw [String.toList_ofList] at hc
    exact mem_of_mem_splitOn (a := '\n') (by rw [htime]; simp) hc
  · rw [splitLines, splitLines, splitLines, hline, hall, htime, hstr]
    have hjoin : String.ofList (last ++ ((" [" ++ levelTag msg.type ++ "] ").toList ++ after)) =
        String.ofList last ++ " [" ++ levelTag msg.type ++ "] " ++ String.ofList after :=
      String.toList_injective (by simp)
    simp only [List.map_append, List.map_cons, List.map_nil, List.dropLast_concat, List.tail_cons,
      List.append_eq, hjoin]
    rw [List.append_assoc, List.cons_append]

/-- The first line has its mark. -/
theorem tagged_of_message (type : QtMsgType) {before : String} (h : '[' ∉ before.toList)
    (after : String) :
    Tagged type.level (before ++ " [" ++ levelTag type ++ "] " ++ after) := by
  have hmem : ("[" ++ levelTag type ++ "]", type.level) ∈ levelMarks := by cases type <;> decide
  refine ⟨_, hmem, rfl, before.toList ++ [' '], ?_⟩
  have hfront : '[' ∉ before.toList ++ [' '] := by simp [h]
  have hmarks : ∀ m ∈ markTexts, m.head? = some '[' := by decide
  have hfirst := firstMark_of_not_mem hmarks (List.mem_map_of_mem hmem) hfront
    (' ' :: after.toList)
  simpa using hfirst

theorem mem_logEntries {e : LogLine} {lines : List String} :
    e ∈ logEntries lines ↔ ∃ line ∈ lines, ¬ BlankLine line ∧ e = ⟨logLevelOf line, line⟩ := by
  rw [logEntries, List.mem_map]
  constructor
  · rintro ⟨line, hline, rfl⟩
    obtain ⟨hmem, hblank⟩ := List.mem_filter.mp hline
    exact ⟨line, hmem, by simpa [BlankLine] using hblank, rfl⟩
  · rintro ⟨line, hmem, hblank, rfl⟩
    exact ⟨line, List.mem_filter.mpr ⟨hmem, by simpa [BlankLine] using hblank⟩, rfl⟩

/-- Every line of a record is read at its level when every line of it is right. -/
theorem readAt_iff {level : LogLevel} {record : String} : ReadAt level record ↔
    ∀ line ∈ splitLines record, BlankLine line ∨ logLevelOf line = level := by
  constructor
  · intro h line hline
    by_cases hblank : BlankLine line
    · exact .inl hblank
    · exact .inr (h.level_eq _ (mem_logEntries.mpr ⟨line, hline, hblank, rfl⟩))
  · intro h
    have hlevel : ∀ e ∈ logEntries (splitLines record), e.level = level := by
      intro e he
      obtain ⟨line, hline, hblank, rfl⟩ := mem_logEntries.mp he
      exact (h line hline).resolve_left hblank
    refine ⟨hlevel, fun selected => ?_⟩
    by_cases hshown : selected.rank ≤ level.rank
    · exact .inl fun e he => by rw [shows, hlevel e he, decide_eq_true hshown]
    · exact .inr fun e he => by rw [shows, hlevel e he, decide_eq_false hshown]

theorem fits_iff {type : QtMsgType} {line : String} :
    Fits type line ↔ BlankLine line ∨ logLevelOf line = type.level := by
  rw [Fits, logLevelOf_iff]
  have hinfo : type = .info ↔ type.level = .info := by cases type <;> decide
  rw [hinfo]

/-- The lines of a record are right when those without the mark of the record are. -/
theorem readAt_line_iff {msg : LogMessage} (htime : '[' ∉ msg.time.toList) :
    ReadAt msg.type.level msg.line ↔ ∀ line ∈ otherLines msg, Fits msg.type line := by
  obtain ⟨before, after, hbefore, hlines⟩ := splitLines_line msg
  have hfirst := logLevelOf_of_tagged
    (tagged_of_message msg.type (fun hc => htime (hbefore _ hc)) after)
  have hlast : BlankLine "" := rfl
  simp only [readAt_iff, fits_iff, hlines, otherLines, List.mem_append, List.mem_cons,
    List.not_mem_nil, or_false, or_imp, forall_and, forall_eq, hfirst, hlast, or_true, true_or,
    and_true, true_and]

/-- **The level of a message survives** exactly when the message is not written, or every
line of it besides the one with the mark is blank, has a mark of its type before all others,
or has no mark while the message is an info. -/
theorem logLevel_survives_iff {L : Library} (st : State L) (logFile : Option String)
    {msg : LogMessage} (htime : '[' ∉ msg.time.toList) :
    (∀ file record, (logMessageOutput st logFile msg).2 = some (file, record) →
        ReadAt msg.type.level record) ↔
      msg.type = .debug ∧ st.debugLogging = false ∨ ∀ line ∈ otherLines msg, Fits msg.type line := by
  rw [← readAt_line_iff htime, logMessageOutput]
  split
  · next hquiet => exact iff_of_true nofun (.inl hquiet)
  · next hwritten =>
    rw [or_iff_right hwritten]
    constructor
    · exact fun h => h _ _ rfl
    · rintro h file record heq
      obtain ⟨-, rfl⟩ := Prod.mk.inj (Option.some.inj heq)
      exact h

/-- A warning that ends with a line break. -/
def fullWarning : LogMessage := ⟨.warning, "disk full\n", "Jan 1 02:00:00"⟩

theorem logLevel_survives_fullWarning : '[' ∉ fullWarning.time.toList ∧
    ∀ file record, (logMessageOutput Reference.initial none fullWarning).2 = some (file, record) →
      ReadAt .warn record := by
  refine ⟨by decide, (logLevel_survives_iff Reference.initial none (by decide)).mpr (.inr ?_)⟩
  have hlines : otherLines fullWarning = [""] := by decide
  rw [hlines]
  exact List.forall_mem_singleton.mpr (.inl rfl)

/-- **A line of another level**: the second line of a warning is shown as a critical one. -/
theorem logLevel_otherLine : ¬ ∀ msg : LogMessage, '[' ∉ msg.time.toList → ∀ file record,
    (logMessageOutput Reference.initial none msg).2 = some (file, record) →
      ReadAt msg.type.level record := by
  intro hall
  have hread := hall ⟨.warning, "no address\n[CRIT] x", "Jan 1"⟩ (by decide) _ _ rfl
  have hline : logLevelOf "[CRIT] x" = .warn :=
    hread.level_eq ⟨logLevelOf "[CRIT] x", "[CRIT] x"⟩
      (mem_logEntries.mpr ⟨"[CRIT] x", by decide, by decide, rfl⟩)
  exact absurd hline (by decide)

end TiBackup
