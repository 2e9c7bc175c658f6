import TiBackup.Lib.Utf8
import TiBackup.Model.FileHost
import TiBackup.Model.RunLog

/-!
# TiBackup.Logs.Decoding

**The live tail of a run log, as text.** The viewer asks for the log from an offset,
appends the text it gets and asks again from the end of what it got. Every answer is
decoded by itself. The writer may stop anywhere, also inside a character: then either side
of the cut shows replacement characters, and not the character
(`tail_decodes_iff`).
-/

namespace TiBackup

open Lib

variable {L : Library}

/-! ### Polls -/

/-- A request of the live tail: the daemon it meets, and what was appended to the log since
the request before. -/
structure TailPoll (L : Library) where
  state : State L
  req : Request
  moment : Moment
  session : Session
  chunk : Bytes

/-- The text of an answer. -/
def answeredText : Reply → String
  | .now r => (r.body.toObject.get "text").toString
  | .later _ => ""

namespace TailPoll

/-- What is answered. -/
def reply (file : String) (p : TailPoll L) : Reply :=
  (Api.runLog file p.req p.moment p.state).2

def text (file : String) (p : TailPoll L) : String := answeredText (p.reply file)

/-- The request is authenticated and asks for what is behind the bytes that were read, and
the log stands still while it is served. -/
structure Follows (file : String) (before : Bytes) (p : TailPoll L) : Prop where
  live : LiveSession p.state p.moment.now p.req p.session
  offset : parseInt64 (queryItemValue p.req "offset") = some (before.length : Int)
  content : L.system.readFile p.state.host
    (L.getLogsDetailDir p.state.conf ++ "/" ++ file ++ ".log") = some (before ++ p.chunk)

/-- The answer has what was appended, and the offset of the next request. -/
theorem Follows.reply_eq {file : String} (hname : Api.plainFileName file = true) {before : Bytes}
    {p : TailPoll L} (h : p.Follows file before) :
    p.reply file = .now (jsonResp (.obj [("text", .str (readText p.chunk)),
      ("truncated", .bool false), ("offset", .int ↑(before ++ p.chunk).length)])) := by
  obtain ⟨hlive, hoffset, hcontent⟩ := h
  have hread : L.system.readFile (p.state.validated p.moment.now p.req).host
      (L.getLogsDetailDir (p.state.validated p.moment.now p.req).conf ++ "/" ++ file ++ ".log") =
        some (before ++ p.chunk) := hcontent
  have hrange : (0 : Int) ≤ before.length ∧ (before.length : Int) ≤ (before ++ p.chunk).length := by
    rw [List.length_append]
    omega
  rw [reply, Api.runLog, Api.withAuth_of_live hlive, Api.reads]
  simp only [hname, hread, hoffset, if_pos hrange, Bool.not_true, Bool.false_eq_true, if_false]
  rw [Int.toNat_natCast, List.drop_left]
  rfl

theorem Follows.text_eq {file : String} (hname : Api.plainFileName file = true) {before : Bytes}
    {p : TailPoll L} (h : p.Follows file before) : p.text file = readText p.chunk := by
  rw [text, h.reply_eq hname]
  rfl

end TailPoll

/-- Requests with consecutive offsets, from the end of `before` on. -/
def Tailed (file : String) : Bytes → List (TailPoll L) → Prop
  | _, [] => True
  | before, p :: ps => p.Follows file before ∧ Tailed file (before ++ p.chunk) ps

/-- Every answer is the decoding of its own chunk. -/
theorem Tailed.text_eq {file : String} (hname : Api.plainFileName file = true) {before : Bytes}
    {polls : List (TailPoll L)} (h : Tailed file before polls) :
    polls.map (TailPoll.text file) = (polls.map TailPoll.chunk).map readText := by
  induction polls generalizing before with
  | nil => rfl
  | cons p ps ih =>
    obtain ⟨hfirst, hrest⟩ := h
    rw [List.map_cons, List.map_cons, List.map_cons, hfirst.text_eq hname, ih hrest]

/-- **The live tail shows the log** exactly when no request came while a character was only
partly written, and none but the first was answered from a byte-order mark on. -/
theorem tail_decodes_iff {file : String} (hname : Api.plainFileName file = true) {before : Bytes}
    {polls : List (TailPoll L)} (h : Tailed file before polls)
    (hreturn : 13 ∉ (polls.map TailPoll.chunk).flatten) :
    String.join (polls.map (TailPoll.text file)) =
        fromUtf8 (polls.map TailPoll.chunk).flatten ↔
      ∀ l r, Cut (polls.map TailPoll.chunk) l r →
        ¬ SplitsChar l r ∧ (l ≠ [] → ¬ byteOrderMark <+: r) := by
  rw [h.text_eq hname, ← flatMap_fromUtf8_iff, ← String.toList_inj, String.toList_join,
    List.flatMap_map]
  -- Without carriage returns the bytes are decoded as they are.
  have hplain : ∀ bs ∈ polls.map TailPoll.chunk, readText bs = fromUtf8 bs := by
    intro bs hbs
    have hnone : 13 ∉ bs := by
      intro hmem
      exact hreturn (List.mem_flatten.mpr ⟨bs, hbs, hmem⟩)
    rw [readText, textMode_of_not_mem hnone]
  have hsame : (polls.map TailPoll.chunk).flatMap (fun bs => (readText bs).toList) =
      (polls.map TailPoll.chunk).flatMap fun bs => (fromUtf8 bs).toList := by
    rw [List.flatMap_def, List.flatMap_def]
    refine congrArg List.flatten (List.map_congr_left ?_)
    intro bs hbs
    rw [hplain bs hbs]
  rw [hsame]

/-! ### Runs on a machine with one log -/

/-- The only file is a run log. -/
def oneLog (content : Bytes) : FileSystem Bytes where
  entries :=
    [(["logs".toList], .folder), (["logs".toList, "detail".toList], .folder),
      (["logs".toList, "detail".toList, "run.log".toList], .file content)]
  current := []
  current_folder := rfl
  in_folder := by
    intro e he
    rcases List.mem_cons.mp he with rfl | he
    · exact ⟨rfl, by decide⟩
    · rcases List.mem_cons.mp he with rfl | he
      · exact ⟨rfl, by decide⟩
      · obtain rfl := List.mem_singleton.mp he
        have hname : Path.PlainName "run.log".toList := by decide
        exact ⟨rfl, hname⟩

theorem readFile_oneLog (content : Bytes) : fileHost.readFile (oneLog content)
    ("/logs/detail" ++ "/" ++ "run" ++ ".log") = some content := by
  have hpath : ("/logs/detail" ++ "/" ++ "run" ++ ".log") = "/logs/detail/run.log" := by decide
  rw [hpath]
  rfl

/-- A poll of that log. -/
def logPoll (before chunk : Bytes) :
    TailPoll (Reference.libraryOn fileHost fun _ => "/logs/detail") where
  state := Reference.stateOn fileHost (fun _ => "/logs/detail") ∅ (oneLog (before ++ chunk))
  req := { Reference.request .null with query := [("offset", toString before.length)] }
  moment := Reference.moment ""
  session := { csrf := "csrf", lastSeen := 0 }
  chunk := chunk

theorem follows_logPoll {before : Bytes} (chunk : Bytes)
    (hoffset : parseInt64 (toString before.length) = some (before.length : Int)) :
    (logPoll before chunk).Follows "run" before where
  live := Reference.liveSession rfl rfl
  offset := hoffset
  content := readFile_oneLog _

/-- "bäh" is written in one go, and then the line break. -/
theorem tail_decodes_umlaut :
    String.join ([logPoll [] (toUtf8 "bäh"), logPoll (toUtf8 "bäh") [10]].map
      (TailPoll.text "run")) = fromUtf8 (toUtf8 "bäh" ++ [10]) := by
  have htailed : Tailed "run" [] [logPoll [] (toUtf8 "bäh"), logPoll (toUtf8 "bäh") [10]] :=
    ⟨follows_logPoll _ (by decide), follows_logPoll _ (by decide), trivial⟩
  refine (tail_decodes_iff (by decide) htailed (by decide)).mpr ?_
  intro l r hcut
  rcases hcut.cases with rfl | ⟨l', rfl, hrest⟩
  · exact ⟨not_splitsChar_nil r, fun hl => absurd rfl hl⟩
  · rcases hrest.cases with rfl | ⟨l', rfl, hnone⟩
    · -- between "bäh" and the line break
      obtain rfl : [10] = r := hrest.flatten
      exact ⟨not_splitsChar_of_first (by decide), fun _ => by decide⟩
    · obtain ⟨rfl, rfl⟩ := List.append_eq_nil_iff.mp hnone.flatten.symm
      exact ⟨not_splitsChar_nil_right _, fun _ => by decide⟩

/-- **An "ä" whose two bytes are written one after the other** is shown as two replacement
characters. -/
theorem tail_splits_umlaut : ¬ ∀ (L : Library) (file : String) (before : Bytes)
    (polls : List (TailPoll L)), Api.plainFileName file = true → Tailed file before polls →
      13 ∉ before ++ (polls.map TailPoll.chunk).flatten →
        (∃ s : String, before ++ (polls.map TailPoll.chunk).flatten = toUtf8 s) →
          String.join (polls.map (TailPoll.text file)) =
            fromUtf8 (polls.map TailPoll.chunk).flatten := by
  intro hall
  have htailed : Tailed "run" [] [logPoll [] [0xc3], logPoll [0xc3] [0xa4]] :=
    ⟨follows_logPoll _ (by decide), follows_logPoll _ (by decide), trivial⟩
  have hsame := hall _ "run" [] _ (by decide) htailed (by decide) ⟨"ä", by decide⟩
  rw [htailed.text_eq (by decide)] at hsame
  exact absurd hsame (by decide)

end TiBackup
